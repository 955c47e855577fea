import MessageCatalog.Proofs.Code.Names
import MessageCatalog.Proofs.Text.Quoted

/-!
# Generated text read as code

A reader goes through a text of the target language and tells words, comments and string literals apart. It refuses what
it has no rule for: characters in single quotes, comments that can be nested, and a quote or a number sign right behind
a word. So where it gets to the end, it is certain where each literal begins and ends.

Main statement: if the words of some code are quiet, that is if none of them opens a literal or a comment, the reader
finds in the text of the code exactly its string literals, each with its text, and ends outside of them.
-/

namespace MessageCatalog

open Text (Inside)

namespace Code

/-! ## The reader -/

/-- Where a reader stands in a text of the target language. -/
inductive Place where
  /-- Between words. -/
  | code
  /-- In a word or a number. -/
  | word
  /-- Behind a word that is the letter `r` so far: a quote would open a raw literal. -/
  | rawMark
  /-- Behind a single quote: the name of a lifetime has to follow. -/
  | tick
  /-- Behind a stroke: another one would open a comment. -/
  | stroke
  /-- In a comment, which goes on to the end of the line. -/
  | comment
  /-- In a string literal. -/
  | literal (inside : Inside)
  /-- In a raw string literal. -/
  | raw
  deriving DecidableEq, Repr

namespace Place

/-- The place behind a character between words. -/
def behind (c : Char) : Place :=
  if c = '"' then literal .plain
  else if c = '\'' then tick
  else if c = '/' then stroke
  else if c = 'r' then rawMark
  else if Text.isIdentifierPart c then word
  else code

/-- The place behind one more character of a word. -/
def behindWord (c : Char) : Option Place :=
  if c = '"' || c = '\'' || c = '#' then none
  else if c = '/' then some stroke
  else if Text.isIdentifierPart c then some word
  else some code

/-- The place behind one more character outside of literals. -/
def next : Place → Char → Option Place
  | code, c => some (behind c)
  | word, c => behindWord c
  | rawMark, c => if c = '"' then some raw else behindWord c
  | tick, c => if Text.isIdentifierStart c then some word else none
  | stroke, c => if c = '/' then some comment else if c = '*' then none else some (behind c)
  | comment, c => if c = '\n' then some code else some comment
  | literal _, _ => none
  | raw, _ => none

/-- The place behind some more characters outside of literals. -/
def pass (place : Place) (text : List Char) : Option Place :=
  text.foldlM next place

/-- Whether a token may end here: in code, and not behind a mark that waits for its successor. -/
def isCalm : Place → Bool
  | code => true
  | word => true
  | rawMark => true
  | _ => false

end Place

/-- A reader of a text of the target language. -/
structure Reader where
  place : Place
  /-- What the open literal stands for so far. -/
  content : List Char
  /-- What the literals that were closed stand for. -/
  found : List (List Char)
  deriving DecidableEq, Repr

namespace Reader

/-- A reader at the front of a text. -/
def start : Reader := ⟨.code, [], []⟩

/-- The open literal ends. -/
def close (reader : Reader) : Reader :=
  ⟨.code, [], reader.found ++ [reader.content]⟩

/-- The reader behind one more character. -/
def step (reader : Reader) (c : Char) : Option Reader :=
  match reader.place with
  | .literal inside =>
    if c = '"' ∧ inside.mayEnd then some reader.close
    else (inside.step c).map fun reached => ⟨.literal reached.1, reader.content ++ reached.2, reader.found⟩
  | .raw =>
    if c = '"' then some reader.close
    else if c = '\r' then none
    else some ⟨.raw, reader.content ++ [c], reader.found⟩
  | place => (place.next c).map fun place => ⟨place, reader.content, reader.found⟩

/-- The reader behind some more characters. -/
def read (reader : Reader) (text : List Char) : Option Reader :=
  text.foldlM step reader

/-- To read two texts is to read the first one and then the second one. -/
theorem read_append (reader : Reader) (a b : List Char) :
    reader.read (a ++ b) = (reader.read a).bind fun reached => reached.read b :=
  List.foldlM_append

/-- To read a text is to make a step for its first character and to read the others. -/
theorem read_cons (reader : Reader) (c : Char) (text : List Char) :
    reader.read (c :: text) = (reader.step c).bind fun reached => reached.read text := rfl

end Reader

/-- Whether a reader gets from one place to another through a text, and finds some literals in it. -/
def Reads (place : Place) (text : List Char) (literals : List (List Char)) (last : Place) : Prop :=
  ∀ found, (Reader.mk place [] found).read text = some ⟨last, [], found ++ literals⟩

namespace Reads

/-- Nothing is found in an empty text. -/
theorem nil (place : Place) : Reads place [] [] place := by
  intro found
  rw [List.append_nil]
  rfl

/-- In two texts is found what is found in the first one and then in the second one. -/
theorem append {first second third : Place} {a b : List Char} {found more : List (List Char)} (ha : Reads first a found second)
    (hb : Reads second b more third) : Reads first (a ++ b) (found ++ more) third := by
  intro before
  rw [Reader.read_append, ha before, Option.bind_some, hb (before ++ found), List.append_assoc]

/-- A text outside of literals has none in it. -/
theorem of_pass {place last : Place} {text : List Char} (h : place.pass text = some last) : Reads place text [] last := by
  intro found
  rw [List.append_nil]
  induction text generalizing place with
  | nil =>
    obtain rfl := Option.some.inj h
    rfl
  | cons c text ih =>
    obtain ⟨reached, hreached, hrest⟩ := Option.bind_eq_some_iff.mp h
    have hstep : (Reader.mk place [] found).step c = some ⟨reached, [], found⟩ := by
      cases place with
      | literal inside => cases hreached
      | raw => cases hreached
      | _ => simp only [Reader.step, hreached, Option.map_some]
    rw [Reader.read_cons, hstep]
    exact ih hrest

/-- Inside a literal the reader follows the rules of literals. -/
theorem read_walk {inside last : Inside} {text gained : List Char} (h : inside.walk text = some (last, gained))
    (content : List Char) (found : List (List Char)) :
    (Reader.mk (.literal inside) content found).read text = some ⟨.literal last, content ++ gained, found⟩ := by
  induction text generalizing inside content gained with
  | nil =>
    obtain ⟨rfl, rfl⟩ := Prod.mk.inj (Option.some.inj h)
    rw [List.append_nil]
    rfl
  | cons c text ih =>
    rw [Inside.walk] at h
    split at h
    · rename_i next first hstep
      obtain ⟨reached, hreached, he⟩ := Option.map_eq_some_iff.mp h
      obtain ⟨rfl, rfl⟩ := Prod.mk.inj he
      have hquote : ¬(c = '"' ∧ inside.mayEnd = true) := by
        rintro ⟨rfl, hends⟩
        rw [Inside.step_quote hends] at hstep
        cases hstep
      have hreader : (Reader.mk (.literal inside) content found).step c = some ⟨.literal next, content ++ first, found⟩ := by
        simp [Reader.step, hquote, hstep]
      rw [Reader.read_cons, hreader, Option.bind_some, ih hreached, List.append_assoc]
    · cases h

/-- The literal of a text is found, with that text. -/
theorem quote (text : String) : Reads .code (Text.quote text).toList [text.toList] .code := by
  intro found
  have hinside := read_walk (Inside.walk_escape text.toList) [] found
  have hopening : (Reader.mk .code [] found).step '"' = some ⟨.literal .plain, [], found⟩ := rfl
  have hclosing : (Reader.mk (.literal .plain) text.toList found).step '"' = some ⟨.code, [], found ++ [text.toList]⟩ := rfl
  rw [Text.quote, String.toList_ofList, List.cons_append, Reader.read_cons, hopening, Option.bind_some, Reader.read_append,
    hinside, Option.bind_some, List.nil_append, Reader.read_cons, hclosing]
  rfl

/-- A raw string goes on until a quote or a carriage return. -/
theorem read_raw {text : List Char} (h : ∀ c ∈ text, c ≠ '"' ∧ c ≠ '\r') (content : List Char) (found : List (List Char)) :
    (Reader.mk .raw content found).read text = some ⟨.raw, content ++ text, found⟩ := by
  induction text generalizing content with
  | nil =>
    rw [List.append_nil]
    rfl
  | cons c text ih =>
    obtain ⟨⟨hquote, hreturn⟩, hrest⟩ := List.forall_mem_cons.mp h
    have hstep : (Reader.mk .raw content found).step c = some ⟨.raw, content ++ [c], found⟩ := by
      simp [Reader.step, hquote, hreturn]
    rw [Reader.read_cons, hstep, Option.bind_some, ih hrest, List.append_assoc]
    rfl

/-- The raw literal of a text without quotes is found, with that text. -/
theorem raw {text : List Char} (h : ∀ c ∈ text, c ≠ '"' ∧ c ≠ '\r') : Reads .code ('r' :: '"' :: text ++ ['"']) [text] .code := by
  intro found
  have hmark : (Reader.mk .code [] found).step 'r' = some ⟨.rawMark, [], found⟩ := rfl
  have hopening : (Reader.mk .rawMark [] found).step '"' = some ⟨.raw, [], found⟩ := rfl
  have hclosing : (Reader.mk .raw text found).step '"' = some ⟨.code, [], found ++ [text]⟩ := rfl
  rw [List.cons_append, List.cons_append, Reader.read_cons, hmark, Option.bind_some, Reader.read_cons, hopening, Option.bind_some,
    Reader.read_append, read_raw h, Option.bind_some, List.nil_append, Reader.read_cons, hclosing]
  rfl

end Reads

end Code

/-! ## String literals and quiet words -/

/-- The text of a string literal. -/
def Token.string? : Token → Option String
  | .literal content => some content
  | .rawLiteral content => some content
  | _ => none

namespace Code

/-- The texts of the string literals in code. -/
def strings (code : Code) : List String :=
  (leaves code).filterMap Token.string?

/-- Whether a text runs through code: it opens neither a literal nor a comment. -/
def isQuietText (text : List Char) : Bool :=
  match Place.code.pass text with
  | some last => last.isCalm
  | none => false

end Code

/-- Whether a token that is no name and no group runs through code, or is a literal that can be read. -/
def Token.isQuiet : Token → Bool
  | .atom text => Code.isQuietText text.toList
  | .mark char _ => Code.Place.behind char = .code
  | .rawLiteral content => content.toList.all fun c => c ≠ '"' && c ≠ '\r'
  | _ => true

namespace Code

/-- Whether all words of the code are quiet. -/
def IsQuiet (code : Code) : Prop :=
  ∀ token ∈ leaves code, token.isQuiet = true

/-- Whether a character opens no literal, no comment and no lifetime, and can stand in a word or end it. -/
def isCalmChar (c : Char) : Bool :=
  c ≠ '"' && c ≠ '\'' && c ≠ '/' && c ≠ '#'

namespace Place

/-- Calm characters lead from one calm place to another. -/
theorem next_of_isCalm {place : Place} (h : place.isCalm = true) {c : Char} (hc : isCalmChar c = true) :
    ∃ reached : Place, reached.isCalm = true ∧ place.next c = some reached := by
  simp only [isCalmChar, Bool.and_eq_true, decide_eq_true_eq] at hc
  obtain ⟨⟨⟨hquote, htick⟩, hstroke⟩, hsign⟩ := hc
  have hcode : (behind c).isCalm = true := by
    simp only [behind, if_neg hquote, if_neg htick, if_neg hstroke]
    split
    · rfl
    split
    · rfl
    · rfl
  have hword : ∃ reached : Place, reached.isCalm = true ∧ behindWord c = some reached := by
    simp only [behindWord, hquote, htick, hsign, hstroke]
    cases Text.isIdentifierPart c with
    | true => exact ⟨word, rfl, rfl⟩
    | false => exact ⟨code, rfl, rfl⟩
  cases place with
  | code => exact ⟨behind c, hcode, rfl⟩
  | word => exact hword
  | rawMark => simpa only [next, if_neg hquote] using hword
  | _ => cases h

/-- Calm characters lead from a calm place to a calm place. -/
theorem pass_of_isCalm {place : Place} (h : place.isCalm = true) {text : List Char} (htext : ∀ c ∈ text, isCalmChar c = true) :
    ∃ last : Place, last.isCalm = true ∧ place.pass text = some last := by
  induction text generalizing place with
  | nil => exact ⟨place, h, rfl⟩
  | cons c text ih =>
    obtain ⟨hc, hrest⟩ := List.forall_mem_cons.mp htext
    obtain ⟨reached, hreached, hnext⟩ := next_of_isCalm h hc
    obtain ⟨last, hlast, hpass⟩ := ih hreached hrest
    exact ⟨last, hlast, Option.bind_eq_some_iff.mpr ⟨reached, hnext, hpass⟩⟩

/-- A blank or a line feed ends every word. -/
theorem pass_blank {place : Place} (h : place.isCalm = true) {c : Char} (hc : c = ' ' ∨ c = '\n') :
    place.pass [c] = some code := by
  rcases hc with rfl | rfl
  · cases place with
    | code => rfl
    | word => rfl
    | rawMark => rfl
    | _ => cases h
  · cases place with
    | code => rfl
    | word => rfl
    | rawMark => rfl
    | _ => cases h

/-- An opening delimiter leads from code to code. -/
theorem pass_opening (delimiter : Delimiter) : code.pass delimiter.opening.toList = some code := by
  cases delimiter with
  | paren => decide
  | bracket => decide
  | brace => decide

/-- A closing delimiter leads from a calm place to code. -/
theorem pass_closing {place : Place} (h : place.isCalm = true) (delimiter : Delimiter) (isEmpty : Bool) :
    place.pass (delimiter.closing isEmpty).toList = some code := by
  cases place with
  | code => cases delimiter <;> cases isEmpty <;> decide
  | word => cases delimiter <;> cases isEmpty <;> decide
  | rawMark => cases delimiter <;> cases isEmpty <;> decide
  | _ => cases h

end Place

/-- A text of calm characters is quiet. -/
theorem isQuietText_of_isCalm {text : List Char} (h : ∀ c ∈ text, isCalmChar c = true) : isQuietText text = true := by
  have hcode : Place.code.isCalm = true := rfl
  obtain ⟨last, hlast, hpass⟩ := Place.pass_of_isCalm hcode h
  rw [isQuietText, hpass]
  exact hlast

/-- A quiet text is read up to its end. -/
theorem Reads.of_isQuietText {text : List Char} (h : isQuietText text = true) :
    ∃ last : Place, last.isCalm = true ∧ Reads .code text [] last := by
  unfold isQuietText at h
  split at h
  · rename_i last hlast
    exact ⟨last, h, Reads.of_pass hlast⟩
  · cases h

/-- A class of characters is calm if it has none of the four others. -/
theorem isCalmChar_of {isPart : Char → Bool}
    (hpart : (['"', '\'', '/', '#'].any isPart) = false) {c : Char} (h : isPart c = true) : isCalmChar c = true := by
  by_contra hc
  simp only [isCalmChar, Bool.not_eq_true, Bool.and_eq_false_iff, decide_eq_false_iff_not, not_not] at hc
  simp only [List.any_cons, List.any_nil, Bool.or_eq_false_iff] at hpart
  rcases hc with ((rfl | rfl) | rfl) | rfl <;> simp_all

/-- A name is written as a word. -/
theorem isQuietText_spelling {name : String} (h : IsName name) (use : Naming.NameUse) :
    isQuietText (use.spelling name).toList = true := by
  have hspelling : IsName (use.spelling name) := by
    cases use with
    | type => exact h
    | field => exact Naming.isName_fieldName h
  exact isQuietText_of_isCalm fun c hc => isCalmChar_of rfl (hspelling.isIdentPart c hc)

end Code

mutual

/-- A token is read up to its end, and its literals are found. -/
theorem Token.reads (token : Token) (hquiet : ∀ leaf ∈ token.leaves, leaf.isQuiet = true)
    (hnamed : ∀ named ∈ token.names, IsName named.2) :
    ∃ last : Code.Place, last.isCalm = true ∧ (token.joinsNext = true → last = .code) ∧
      Code.Reads .code (token.pieces.flatMap String.toList) ((token.leaves.filterMap Token.string?).map String.toList) last :=
  match token with
  | .atom text => by
    obtain ⟨last, hlast, hreads⟩ := Code.Reads.of_isQuietText (hquiet (.atom text) (List.mem_singleton.mpr rfl))
    refine ⟨last, hlast, fun hjoins => (by cases hjoins), ?_⟩
    rw [Token.pieces, List.flatMap_singleton]
    exact hreads
  | .name use text => by
    have htext : IsName text := hnamed (use, text) (List.mem_singleton.mpr rfl)
    obtain ⟨last, hlast, hreads⟩ := Code.Reads.of_isQuietText (Code.isQuietText_spelling htext use)
    refine ⟨last, hlast, fun hjoins => (by cases hjoins), ?_⟩
    rw [Token.pieces, List.flatMap_singleton]
    exact hreads
  | .mark char joined => by
    have hchar := hquiet (.mark char joined) (List.mem_singleton.mpr rfl)
    have hpass : Code.Place.code.pass [char] = some .code := congrArg some (of_decide_eq_true hchar)
    refine ⟨.code, rfl, fun _ => rfl, ?_⟩
    rw [Token.pieces, List.flatMap_singleton, String.toList_singleton]
    exact Code.Reads.of_pass hpass
  | .literal content => by
    refine ⟨.code, rfl, fun _ => rfl, ?_⟩
    rw [Token.pieces, List.flatMap_singleton]
    exact Code.Reads.quote content
  | .rawLiteral content => by
    have hcontent := hquiet (.rawLiteral content) (List.mem_singleton.mpr rfl)
    refine ⟨.code, rfl, fun _ => rfl, ?_⟩
    have hpieces : (Token.rawLiteral content).pieces.flatMap String.toList = 'r' :: '"' :: content.toList ++ ['"'] := by
      simp [Token.pieces]
    rw [hpieces]
    exact Code.Reads.raw (by simpa [Token.isQuiet] using hcontent)
  | .group delimiter body => by
    obtain ⟨last, hlast, hbody⟩ := Code.reads body hquiet hnamed
    have hopening := Code.Reads.of_pass (Code.Place.pass_opening delimiter)
    have hclosing := Code.Reads.of_pass (Code.Place.pass_closing hlast delimiter body.isEmpty)
    refine ⟨.code, rfl, fun _ => rfl, ?_⟩
    have hgroup := hopening.append (hbody.append hclosing)
    rw [List.append_nil, List.nil_append] at hgroup
    rw [Token.pieces, List.flatMap_cons, List.flatMap_append, List.flatMap_singleton]
    exact hgroup

/-- Code is read up to its end, and its literals are found. -/
theorem Code.reads (code : List Token) (hquiet : Code.IsQuiet code) (hnamed : Code.IsNamed code) :
    ∃ last : Code.Place, last.isCalm = true ∧
      Code.Reads .code ((Code.pieces code).flatMap String.toList) ((Code.strings code).map String.toList) last :=
  match code with
  | [] => ⟨.code, rfl, Code.Reads.nil .code⟩
  | token :: rest => by
    have hleaves := List.forall_mem_append.mp hquiet
    have hnames := List.forall_mem_append.mp hnamed
    obtain ⟨middle, hmiddle, hjoined, hfirst⟩ := token.reads hleaves.1 hnames.1
    obtain ⟨last, hlast, hrest⟩ := Code.reads rest hleaves.2 hnames.2
    rw [Code.strings, Code.leaves, List.filterMap_append, List.map_append, Code.pieces, List.flatMap_append, List.flatMap_append]
    by_cases hempty : rest.isEmpty = true
    · obtain rfl := List.isEmpty_iff.mp hempty
      refine ⟨middle, hmiddle, ?_⟩
      rw [if_pos (by simp), Code.pieces, Code.leaves]
      simpa only [List.flatMap_nil, List.filterMap_nil, List.map_nil, List.append_nil] using hfirst
    refine ⟨last, hlast, ?_⟩
    by_cases hjoins : token.joinsNext = true
    · obtain rfl := hjoined hjoins
      rw [if_pos (by simp [hjoins]), List.flatMap_nil, List.append_nil]
      exact hfirst.append hrest
    · -- A blank leads back between words.
      have hblank := Code.Reads.of_pass (Code.Place.pass_blank hmiddle (.inl rfl))
      rw [if_neg (by simp [hempty, hjoins]), List.flatMap_singleton]
      have hboth := (hfirst.append hblank).append hrest
      rw [List.append_nil] at hboth
      exact hboth

end

mutual

/-- The tokens in a token stand in its text. -/
theorem Token.leaf_isInfix (token : Token) {leaf : Token} (h : leaf ∈ token.leaves) :
    leaf.pieces.flatMap String.toList <:+: token.pieces.flatMap String.toList :=
  match token with
  | .atom text => List.mem_singleton.mp h ▸ List.infix_rfl
  | .name use text => List.mem_singleton.mp h ▸ List.infix_rfl
  | .mark char joined => List.mem_singleton.mp h ▸ List.infix_rfl
  | .literal content => List.mem_singleton.mp h ▸ List.infix_rfl
  | .rawLiteral content => List.mem_singleton.mp h ▸ List.infix_rfl
  | .group delimiter body => by
    have hbody := Code.leaf_isInfix body h
    rw [Token.pieces, List.flatMap_cons, List.flatMap_append]
    exact (hbody.trans (List.prefix_append _ _).isInfix).trans (List.suffix_append _ _).isInfix

/-- The tokens in code stand in its text. -/
theorem Code.leaf_isInfix (code : List Token) {leaf : Token} (h : leaf ∈ Code.leaves code) :
    leaf.pieces.flatMap String.toList <:+: (Code.pieces code).flatMap String.toList :=
  match code with
  | [] => by cases h
  | token :: rest => by
    rw [Code.pieces, List.flatMap_append, List.flatMap_append]
    rcases List.mem_append.mp h with h | h
    · have hfirst := token.leaf_isInfix h
      exact (hfirst.trans (List.prefix_append _ _).isInfix).trans (List.prefix_append _ _).isInfix
    · exact (Code.leaf_isInfix rest h).trans (List.suffix_append _ _).isInfix

end

namespace Code

/-- The literals of code stand in its text. -/
theorem quote_isInfix {code : Code} {content : String} (h : .literal content ∈ leaves code) :
    (Text.quote content).toList <:+: (render code).toList := by
  have hinfix := leaf_isInfix code h
  rwa [Token.pieces, List.flatMap_singleton, ← String.toList_join] at hinfix

/-! ## Code that is read from a text -/

/-- A punctuation character that is calm stands between words. -/
theorem behind_of_isMark {c : Char} (h : isMark c = true) (hcalm : isCalmChar c = true) : Place.behind c = .code := by
  have hmarks : ("~!@#$%^&*-=+|;:,<.>/?'".toList.all fun c => !isCalmChar c || Place.behind c = .code) = true := by decide
  have hc := List.all_eq_true.mp hmarks c (List.contains_iff_mem.mp h)
  simpa [hcalm] using hc

/-- Code that is read from a text, and written in calm characters, is quiet. -/
theorem IsLexed.isQuiet {code : Code} (h : IsLexed code) (hcalm : ∀ c ∈ (render code).toList, isCalmChar c = true) :
    IsQuiet code := by
  intro leaf hleaf
  have htext : ∀ c ∈ leaf.pieces.flatMap String.toList, isCalmChar c = true := by
    intro c hc
    rw [render, String.toList_join] at hcalm
    exact hcalm c ((leaf_isInfix code hleaf).subset hc)
  cases leaf with
  | atom text =>
    rw [Token.pieces, List.flatMap_singleton] at htext
    exact isQuietText_of_isCalm htext
  | mark char joined =>
    have hchar : isCalmChar char = true := htext char (by simp [Token.pieces])
    exact decide_eq_true (behind_of_isMark (h _ hleaf) hchar)
  | rawLiteral content =>
    have hquote : isCalmChar '"' = true := htext '"' (by simp [Token.pieces])
    cases hquote
  | _ => rfl

end Code

end MessageCatalog
