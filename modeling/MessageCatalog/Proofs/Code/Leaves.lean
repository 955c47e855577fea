import MessageCatalog.Code.Lexer

/-!
# The tokens of code

The tokens of code that are no groups, in the order in which they are written. Code that is read from a text, such as
the path to the support code, has words, punctuation and literals there, and neither names nor raw literals.
-/

namespace MessageCatalog

mutual

/-- The tokens in a token that are no groups. -/
def Token.leaves : Token → List Token
  | .group _ body => Code.leaves body
  | token => [token]

/-- The tokens in code that are no groups, in the order of the text. -/
def Code.leaves : List Token → List Token
  | [] => []
  | token :: rest => token.leaves ++ Code.leaves rest

end

/-- Whether a token that is no group can be read from a text. -/
def Token.IsLexed : Token → Prop
  | .atom _ => True
  | .literal _ => True
  | .mark char _ => Code.isMark char = true
  | _ => False

namespace Code

/-- The leaves of two pieces of code are those of the first one and then those of the second one. -/
@[simp] theorem leaves_append (a b : Code) : leaves (a ++ b) = leaves a ++ leaves b := by
  induction a with
  | nil => rfl
  | cons token a ih => rw [List.cons_append, leaves, leaves, ih, List.append_assoc]

/-- The leaves of a group are those of its body. -/
@[simp] theorem leaves_group (delimiter : Delimiter) (body : Code) : leaves [.group delimiter body] = leaves body := by
  rw [leaves, Token.leaves, leaves, List.append_nil]

/-- A text with blanks in it becomes a row of words. -/
theorem leaves_of (text : String) : leaves (of text) = of text := by
  unfold of
  induction text.toList.splitOn ' ' with
  | nil => rfl
  | cons word words ih =>
    rw [List.map_cons, leaves, ih]
    rfl

/-- Whether all tokens of the code can be read from a text. -/
def IsLexed (code : Code) : Prop :=
  ∀ leaf ∈ leaves code, leaf.IsLexed

theorem isLexed_nil : IsLexed [] := by
  intro leaf hleaf
  cases hleaf

/-- Two pieces of code can both come from a text if each can. -/
theorem isLexed_append {a b : Code} : IsLexed (a ++ b) ↔ IsLexed a ∧ IsLexed b := by
  rw [IsLexed, leaves_append, List.forall_mem_append]
  rfl

/-- A group can come from a text if its body can. -/
theorem isLexed_group {delimiter : Delimiter} {body : Code} : IsLexed [.group delimiter body] ↔ IsLexed body := by
  rw [IsLexed, leaves_group]
  rfl

/-- The order of tokens does not matter for whether each can come from a text. -/
theorem isLexed_reverse {code : Code} : IsLexed code.reverse ↔ IsLexed code := by
  induction code with
  | nil => rfl
  | cons token code ih =>
    rw [List.reverse_cons, isLexed_append, ih, and_comm, ← isLexed_append]
    rfl

theorem isLexed_atom (text : String) : IsLexed [.atom text] := List.forall_mem_singleton.mpr trivial

theorem isLexed_literal (content : String) : IsLexed [.literal content] := List.forall_mem_singleton.mpr trivial

/-- A mark comes from a text if its character is one. -/
theorem isLexed_mark {char : Char} (h : isMark char = true) (joined : Bool) : IsLexed [.mark char joined] :=
  List.forall_mem_singleton.mpr h

/-- The words of a text can come from a text. -/
theorem isLexed_of (text : String) : IsLexed (of text) := by
  intro leaf hleaf
  rw [leaves_of] at hleaf
  obtain ⟨word, -, rfl⟩ := List.mem_map.mp hleaf
  trivial

/-- A documentation that was read is code that can come from a text. -/
theorem isLexed_documentation (inner : Bool) (content : List Char) : IsLexed (documentation inner content) := by
  refine isLexed_append.mpr ⟨isLexed_append.mpr ⟨isLexed_atom _, ?_⟩, isLexed_group.mpr ?_⟩
  · cases inner with
    | false => exact isLexed_nil
    | true => exact isLexed_atom _
  · exact isLexed_append.mpr ⟨isLexed_of _, isLexed_literal _⟩

/-- What is read as documentation can come from a text. -/
theorem isLexed_of_documentation? {text rest : List Char} {code : Code} (h : documentation? text = some (code, rest)) :
    IsLexed code := by
  unfold documentation? at h
  split at h
  · cases h
  split at h
  · obtain ⟨-, he⟩ := Option.ite_none_right_eq_some.mp h
    obtain ⟨rfl, -⟩ := Prod.mk.inj (Option.some.inj he)
    exact isLexed_documentation _ _
  · split at h
    · obtain ⟨-, he⟩ := Option.ite_none_right_eq_some.mp h
      obtain ⟨rfl, -⟩ := Prod.mk.inj (Option.some.inj he)
      exact isLexed_documentation _ _
    · cases h
  · cases h

/-- What is read as a mark is one. -/
theorem isMark_of_mark? {text rest : List Char} {c : Char} (h : mark? text = some (c, rest)) : isMark c = true := by
  unfold mark? at h
  split at h
  · cases h
  · cases h
  · obtain ⟨hmark, he⟩ := Option.ite_none_right_eq_some.mp h
    obtain ⟨rfl, -⟩ := Prod.mk.inj (Option.some.inj he)
    exact hmark
  · cases h

/-- What is read as one token can come from a text. -/
theorem isLexed_of_leaf? {text rest : List Char} {token : Token} (h : leaf? text = some (token, rest)) : IsLexed [token] := by
  unfold leaf? at h
  split at h
  · obtain ⟨rfl, -⟩ := Prod.mk.inj (Option.some.inj h)
    exact isLexed_atom _
  split at h
  · rename_i c rest' hc
    split at h
    · split at h
      · obtain ⟨rfl, -⟩ := Prod.mk.inj (Option.some.inj h)
        exact isLexed_mark (isMark_of_mark? hc) _
      · cases h
    · obtain ⟨rfl, -⟩ := Prod.mk.inj (Option.some.inj h)
      exact isLexed_mark (isMark_of_mark? hc) _
  split at h
  · cases h
  · obtain ⟨found, -, he⟩ := Option.map_eq_some_iff.mp h
    obtain ⟨rfl, -⟩ := Prod.mk.inj he
    exact isLexed_atom _

/-- Whether the tokens of a lexeme can be read from a text. -/
def Lexeme.IsLexed : Lexeme → Prop
  | .tokens code => Code.IsLexed code
  | _ => True

/-- What is read as a token or a bracket can come from a text. -/
theorem isLexed_of_lexeme? {text rest : List Char} {lexeme : Lexeme} (h : lexeme? text = some (lexeme, rest)) :
    lexeme.IsLexed := by
  unfold lexeme? at h
  split at h
  · rename_i code rest' hcode
    obtain ⟨rfl, -⟩ := Prod.mk.inj (Option.some.inj h)
    exact isLexed_of_documentation? hcode
  split at h
  · obtain ⟨rfl, -⟩ := Prod.mk.inj (Option.some.inj h)
    exact isLexed_atom _
  split at h
  case h_7 =>
    obtain ⟨found, hfound, he⟩ := Option.map_eq_some_iff.mp h
    obtain ⟨rfl, -⟩ := Prod.mk.inj he
    exact isLexed_of_leaf? hfound
  all_goals
    obtain ⟨rfl, -⟩ := Prod.mk.inj (Option.some.inj h)
    trivial

/-- All tokens and brackets that are read of a text can come from one. -/
theorem isLexed_of_lexemes? {text : List Char} {lexemes : List Lexeme} (h : lexemes? text = some lexemes) :
    ∀ lexeme ∈ lexemes, lexeme.IsLexed := by
  fun_induction lexemes? text generalizing lexemes with
  | case1 => simp_all
  | case2 text _ rest _ _ ih => exact ih h
  | case3 => cases h
  | case4 text _ _ lexeme rest hlexeme _ ih =>
    obtain ⟨later, hlater, rfl⟩ := Option.map_eq_some_iff.mp h
    exact List.forall_mem_cons.mpr ⟨isLexed_of_lexeme? hlexeme, ih hlater⟩
  | case5 => cases h
  | case6 => cases h

/-- Grouping keeps the tokens: the open groups and the tokens at hand carry the invariant. -/
theorem isLexed_of_gather {outer : List (Delimiter × Code)} {done code : Code} {lexemes : List Lexeme}
    (houter : ∀ group ∈ outer, IsLexed group.2) (hdone : IsLexed done) (hlexemes : ∀ lexeme ∈ lexemes, lexeme.IsLexed)
    (h : gather outer done lexemes = some code) : IsLexed code := by
  fun_induction gather outer done lexemes with
  | case1 done =>
    obtain rfl := Option.some.inj h
    exact isLexed_reverse.mpr hdone
  | case2 => cases h
  | case3 outer done tokens rest ih =>
    obtain ⟨htokens, hrest⟩ := List.forall_mem_cons.mp hlexemes
    exact ih houter (isLexed_append.mpr ⟨isLexed_reverse.mpr htokens, hdone⟩) hrest h
  | case4 outer done delimiter rest ih =>
    obtain ⟨-, hrest⟩ := List.forall_mem_cons.mp hlexemes
    exact ih (List.forall_mem_cons.mpr ⟨hdone, houter⟩) isLexed_nil hrest h
  | case5 => cases h
  | case6 before outer done delimiter rest ih =>
    obtain ⟨-, hrest⟩ := List.forall_mem_cons.mp hlexemes
    obtain ⟨hbefore, houter⟩ := List.forall_mem_cons.mp houter
    have hgroup : IsLexed [.group delimiter done.reverse] := isLexed_group.mpr (isLexed_reverse.mpr hdone)
    exact ih houter (isLexed_append.mpr ⟨hgroup, hbefore⟩) hrest h
  | case7 => cases h

/-- Code that is read from a text has no other tokens. -/
theorem isLexed_of_read? {text : String} {code : Code} (h : read? text = some code) : IsLexed code := by
  obtain ⟨lexemes, hlexemes, hgather⟩ := Option.bind_eq_some_iff.mp h
  exact isLexed_of_gather (List.forall_mem_nil _) isLexed_nil (isLexed_of_lexemes? hlexemes) hgather

end Code

end MessageCatalog
