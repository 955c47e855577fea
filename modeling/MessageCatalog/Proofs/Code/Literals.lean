import MessageCatalog.Proofs.Code.QuietWords
import MessageCatalog.Proofs.Code.TypeNames

/-!
# Texts of the template in generated code

A template has texts that are no names: its version, the classifiers and the deprecation of a message. They and the places that
failures name stand in the generated text in the first line, which is a comment, and in string literals.

Main statement: none of them gets out of its place. The first line ends where the version does, whatever the version is,
and each literal is read as exactly the text it was written for. A reader of the whole text finds these literals and no
others.
-/

namespace MessageCatalog

/-! ## The texts that code quotes -/

namespace Code

/-- Whether a text is the text of a string literal in the code. -/
def Quotes (code : Code) (text : String) : Prop :=
  .literal text ∈ leaves code

variable {text : String}

/-- Two pieces of code quote what either of them does. -/
@[simp] theorem quotes_append {a b : Code} : Quotes (a ++ b) text ↔ Quotes a text ∨ Quotes b text := by
  rw [Quotes, leaves_append, List.mem_append]
  rfl

/-- A literal quotes its content. -/
@[simp] theorem quotes_literal {content : String} : Quotes (literal content) text ↔ text = content := by
  rw [Quotes, literal, leaves, leaves]
  simp [Token.leaves]

/-- A group quotes what its body does. -/
theorem quotes_group {delimiter : Delimiter} {body : Code} : Quotes [.group delimiter body] text ↔ Quotes body text := by
  rw [Quotes, leaves_group]
  rfl

@[simp] theorem quotes_paren {body : Code} : Quotes (paren body) text ↔ Quotes body text := quotes_group

@[simp] theorem quotes_bracket {body : Code} : Quotes (bracket body) text ↔ Quotes body text := quotes_group

@[simp] theorem quotes_brace {body : Code} : Quotes (brace body) text ↔ Quotes body text := quotes_group

/-- The code of a list quotes what that of an item does. -/
theorem quotes_all {α : Type} {items : List α} {code : α → Code} {item : α} (hitem : item ∈ items) (h : Quotes (code item) text) :
    Quotes (all items code) text := by
  obtain ⟨before, after, rfl⟩ := List.append_of_mem hitem
  simp [all, h]

/-- A documentation from the template quotes its text. -/
@[simp] theorem quotes_docOf {content : String} (h : text = content) : Quotes (docOf content) text := by
  simp [docOf, h]

end Code

namespace Block

/-- What the documentation of the record type of a block says, and that of its fields. -/
def docs (b : Block) : List String :=
  s!" `{b.name}` block of `{b.message}`." :: b.fields.map fun f => s!" `{f.name}`: {f.type.tag}"

/-- The places that failures name: the count of a block with any number of records, and every field. -/
def places (b : Block) : List String :=
  (if b.quantity = .varying then [b.path] else []) ++ b.fields.map b.fieldPath

end Block

namespace Message

/-- The texts of a message that its record types and codecs quote. Only the codecs name places. -/
def itemTexts (m : Message) (hasCodec : Bool) : List String :=
  Generator.messageSummary m :: m.blocks.flatMap Block.docs ++ if hasCodec then m.blocks.flatMap Block.places else []

/-- The texts of a message that its code quotes. -/
def quotedTexts (m : Message) (hasCodec : Bool) : List String :=
  [m.name, m.trust, m.encoding] ++ m.itemTexts hasCodec

end Message

/-- The texts of a template that its code quotes. -/
def Template.quotedTexts (t : Template) (disabled : List String) : List String :=
  t.version :: t.messages.flatMap fun m => m.quotedTexts (m.disabledTag? disabled).isNone

namespace Generator

open Code (Quotes)

variable {g : Generator} {text : String}

/-- A function of kinds quotes what its value for a message does. -/
theorem quotes_kindFunction {name : String} {type : Code} {messages : List Message} {value : Message → Code} {m : Message}
    (hm : m ∈ messages) (h : Quotes (value m) text) : Quotes (kindFunction name type messages value) text := by
  have harms : Quotes (Code.all messages fun m => kindOf m ++ Code.word "=>" ++ value m ++ Code.word ",") text :=
    Code.quotes_all hm (by simp [h])
  simp only [kindFunction, Code.quotes_append, Code.quotes_brace, harms, or_true]

/-- The enumeration of messages quotes the name, the trust and the encoding of each message. -/
theorem quotes_kinds {messages : List Message} {m : Message} (hm : m ∈ messages) (h : text ∈ [m.name, m.trust, m.encoding]) :
    Quotes (g.kinds messages) text := by
  have hvalue (name : String) (type : Code) (content : Message → String) (hcontent : text = content m) :
      Quotes (kindFunction name type messages fun m => Code.literal (content m)) text :=
    quotes_kindFunction hm (Code.quotes_literal.mpr hcontent)
  simp only [List.mem_cons, List.not_mem_nil, or_false] at h
  rcases h with rfl | rfl | rfl
  · simp [kinds, hvalue "name" _ (·.name) rfl]
  · simp [kinds, hvalue "trust" _ (·.trust) rfl]
  · simp [kinds, hvalue "encoding" _ (·.encoding) rfl]

/-- The record type of a message quotes its summary. -/
theorem quotes_messageRecord (m : Message) : Quotes (g.messageRecord m) (messageSummary m) := by
  simp [messageRecord]

/-- The record type of a block quotes its documentation and that of its fields. -/
theorem quotes_blockRecord {b : Block} (h : text ∈ b.docs) : Quotes (g.blockRecord b) text := by
  rcases List.mem_cons.mp h with rfl | h
  · simp [blockRecord]
  · obtain ⟨f, hf, rfl⟩ := List.mem_map.mp h
    unfold blockRecord
    refine Code.quotes_append.mpr (.inr (Code.quotes_brace.mpr (Code.quotes_all hf ?_)))
    simp

/-- What is read at a place quotes the place. -/
theorem quotes_readAt (place : String) (read : Code) : Quotes (g.readAt place read) place := by
  simp [readAt]

/-- The function that reads quotes what its body does. -/
theorem quotes_readFunction {reads : Code} (h : Quotes reads text) (isEmpty : Bool) :
    Quotes (g.readFunction isEmpty reads) text := by
  simp [readFunction, h]

/-- The codec of a block quotes the places of its fields. -/
theorem quotes_blockCodec {b : Block} {f : Field} (hf : f ∈ b.fields) : Quotes (g.itemCode (.blockCodec b)) (b.fieldPath f) := by
  have hread : Quotes (g.blockRead b) (b.fieldPath f) :=
    quotes_readFunction (Code.quotes_all hf (by simp [quotes_readAt])) _
  simp [itemCode, hread]

/-- The codec of a message quotes the places of its blocks of varying length. -/
theorem quotes_messageCodec {m : Message} {b : Block} (hb : b ∈ m.blocks) (h : b.quantity = .varying) :
    Quotes (g.itemCode (.messageCodec m)) b.path := by
  have hblock : Quotes (g.readBlock b) b.path := by simp [readBlock, h, quotes_readAt]
  have hread : Quotes (g.messageRead m) b.path :=
    quotes_readFunction (Code.quotes_all hb (by simp [hblock])) _
  simp [itemCode, hread]

/-- The parts of a message quote all its texts. -/
theorem quotes_items {m : Message} {hasCodec : Bool} (h : text ∈ m.itemTexts hasCodec) :
    ∃ item ∈ m.items hasCodec, Quotes (g.itemCode item) text := by
  rcases List.mem_append.mp h with h | h
  · rcases List.mem_cons.mp h with rfl | h
    · exact ⟨.messageRecord m, by cases hasCodec <;> simp [Message.items], quotes_messageRecord m⟩
    · obtain ⟨b, hb, h⟩ := List.mem_flatMap.mp h
      have hitem : .blockRecord b ∈ m.items hasCodec := by cases hasCodec <;> simp [Message.items, hb]
      exact ⟨.blockRecord b, hitem, quotes_blockRecord h⟩
  cases hasCodec with
  | false => cases h
  | true =>
    obtain ⟨b, hb, h⟩ := List.mem_flatMap.mp h
    rcases List.mem_append.mp h with h | h
    · obtain ⟨hquantity, h⟩ := List.mem_ite_nil_right.mp h
      obtain rfl := List.mem_singleton.mp h
      exact ⟨.messageCodec m, by simp [Message.items], quotes_messageCodec hb hquantity⟩
    · obtain ⟨f, hf, rfl⟩ := List.mem_map.mp h
      exact ⟨.blockCodec b, by simp [Message.items, hb], quotes_blockCodec hf⟩

/-- The code of a template quotes its texts. -/
theorem quotes_outlineCode {t : Template} {disabled : List String} (h : text ∈ t.quotedTexts disabled) :
    Quotes (g.outlineCode (t.outline disabled)) text := by
  simp only [outlineCode, Code.quotes_append]
  rcases List.mem_cons.mp h with rfl | h
  · simp [Template.outline]
  obtain ⟨m, hm, h⟩ := List.mem_flatMap.mp h
  rcases List.mem_append.mp h with h | h
  · have hmember : m ∈ (t.outline disabled).arms.map (·.message) := by
      simpa [Template.outline, armsSkipping] using hm
    simp [quotes_kinds hmember h]
  · obtain ⟨item, hitem, h⟩ := quotes_items (g := g) h
    have hitems : Quotes (Code.all (t.outline disabled).items g.itemCode) text :=
      Code.quotes_all (List.mem_flatMap.mpr ⟨m, hm, hitem⟩) h
    simp [hitems]

end Generator

/-! ## The generated text -/

/-- What the first line says. -/
def Generated.header (version : String) : String :=
  "// Generated by msgtemplate from template version " ++ version ++ ". Do not edit."

/-- A text in front of code ends at its first line break. -/
theorem toList_behind {back ending : String} (h : ending = back ++ "\n") (front middle code : String) :
    (front ++ middle ++ ending ++ code ++ "\n").toList = (front ++ middle ++ back).toList ++ '\n' :: (code.toList ++ ['\n']) := by
  subst h
  simp

/-- The generated text is a line of its own and the code behind it. -/
theorem Generated.toList_source (out : Generated) :
    out.source.toList = (Generated.header out.version).toList ++ '\n' :: ((Code.render out.code).toList ++ ['\n']) := by
  have hending : ". Do not edit.\n" = ". Do not edit." ++ "\n" := by decide
  unfold Generated.source Generated.header
  exact toList_behind hending _ _ _

namespace Code.Place

/-- To pass two stretches of text is to pass the first one and then the second one. -/
theorem pass_append {place middle : Place} {a : List Char} (h : place.pass a = some middle) (b : List Char) :
    place.pass (a ++ b) = middle.pass b := by
  unfold pass at h ⊢
  rw [List.foldlM_append, h]
  rfl

/-- A comment goes on to the end of its line. -/
theorem pass_comment {text : List Char} (h : '\n' ∉ text) : comment.pass text = some comment := by
  induction text with
  | nil => rfl
  | cons c text ih =>
    rw [List.mem_cons, not_or] at h
    have hnext : comment.next c = some comment := if_neg (Ne.symm h.1)
    exact Option.bind_eq_some_iff.mpr ⟨comment, hnext, ih h.2⟩

/-- Whether a text on one line opens a comment. -/
def opensComment (text : List Char) : Bool :=
  code.pass text = some comment && !text.contains '\n'

/-- A line that opens a comment is a comment up to its end. -/
theorem pass_commentLine {front middle back : String} (hfront : opensComment front.toList = true) (hmiddle : '\n' ∉ middle.toList)
    (hback : '\n' ∉ back.toList) : '\n' ∉ (front ++ middle ++ back).toList ∧
      code.pass ((front ++ middle ++ back).toList ++ ['\n']) = some code := by
  rw [opensComment, Bool.and_eq_true, decide_eq_true_iff, Bool.not_eq_true', List.contains_eq_mem,
    decide_eq_false_iff_not] at hfront
  rw [String.toList_append, String.toList_append]
  constructor
  · simp only [List.mem_append, not_or]
    exact ⟨⟨hfront.2, hmiddle⟩, hback⟩
  · rw [List.append_assoc, List.append_assoc, pass_append hfront.1, pass_append (pass_comment hmiddle),
      pass_append (pass_comment hback)]
    rfl

end Code.Place

namespace Generated

/-- The first line is a comment, whatever the version is. -/
theorem header_line {version : String} (h : '\n' ∉ version.toList) : '\n' ∉ (header version).toList ∧
    Code.Place.code.pass ((header version).toList ++ ['\n']) = some .code := by
  unfold header
  exact Code.Place.pass_commentLine (Code.holds_ofList rfl) h (by decide)

end Generated

namespace Code

/-- Quiet code is read up to its end, and its literals are found. -/
theorem read_render {code : Code} (hquiet : IsQuiet code) (hnamed : IsNamed code) :
    Reader.start.read ((render code).toList ++ ['\n']) = some ⟨.code, [], (strings code).map String.toList⟩ := by
  obtain ⟨last, hlast, hreads⟩ := Code.reads code hquiet hnamed
  have hfeed := Reads.of_pass (Place.pass_blank hlast (.inr rfl))
  rw [render, String.toList_join]
  simpa [Reader.start] using (hreads.append hfeed) []

/-- A literal is one line, and is read as the text it was written for. -/
theorem exists_literal {code : Code} {text : String} (h : Quotes code text) :
    ∃ before inside after, (render code).toList = before ++ ('"' :: inside ++ ['"']) ++ after ∧
      Text.unescape? inside = some text.toList ∧ '\n' ∉ inside ∧ '\r' ∉ inside ∧
        Reader.start.read ('"' :: inside ++ ['"']) = some ⟨.code, [], [text.toList]⟩ := by
  obtain ⟨before, after, hrender⟩ := quote_isInfix h
  have hquote : (Text.quote text).toList = '"' :: Text.escape text.toList ++ ['"'] := by
    rw [Text.quote, String.toList_ofList]
  have hvisible := Text.isVisible_escape text.toList
  refine ⟨before, Text.escape text.toList, after, ?_, Text.unescape?_escape text.toList, ?_, ?_, ?_⟩
  · rw [← hrender, hquote]
  · intro hfeed
    cases hvisible _ hfeed
  · intro hreturn
    cases hvisible _ hreturn
  · rw [← hquote]
    exact Reads.quote text []

end Code

/-- No text of the template gets out of its place in the generated text. The first line holds the version and is a
comment up to its end, which is the first line feed there is. Every text that the code quotes, those of the template
among them, stands behind it as a literal on one line, and what is between the quotes is read as exactly that text. If
the path to the support code has neither quotes nor strokes nor number signs, a reader of all that stands behind the
first line ends outside of literals and comments, and the literals it finds are those of the code. -/
theorem texts_stay_in_place_of_generate {source : String} {config : Config} {g : Generator} {t : Template} {out : Generated}
    (hg : config.toGenerator = .ok g) (ht : parse source = .ok t) (h : generate source config = .ok out) :
    ∃ header body, out.source.toList = header ++ '\n' :: body ∧
      (header = (Generated.header t.version).toList ∧ '\n' ∉ header ∧
        Code.Reader.start.read (header ++ ['\n']) = some Code.Reader.start) ∧
      (∀ text ∈ t.quotedTexts config.disabled, Code.Quotes out.code text) ∧
      (∀ text, Code.Quotes out.code text → ∃ before inside after, body = before ++ ('"' :: inside ++ ['"']) ++ after ∧
        Text.unescape? inside = some text.toList ∧ '\n' ∉ inside ∧ '\r' ∉ inside ∧
          Code.Reader.start.read ('"' :: inside ++ ['"']) = some ⟨.code, [], [text.toList]⟩) ∧
      ((∀ c ∈ (Code.render g.runtime).toList, Code.isCalmChar c = true) →
        Code.Reader.start.read body = some ⟨.code, [], (Code.strings out.code).map String.toList⟩) := by
  obtain ⟨runtime, hruntime, -, rfl⟩ := Config.of_toGenerator hg
  have hsound := Config.sound_of_toGenerator hg
  have hvalid := parse_valid ht
  obtain rfl := eq_of_generate hg ht h
  obtain ⟨hline, hpass⟩ := Generated.header_line hvalid.version.oneLine
  refine ⟨_, _, Generated.toList_source _, ⟨rfl, hline, Code.Reads.of_pass hpass []⟩, ?_, ?_, ?_⟩
  · intro text htext
    exact Generator.quotes_outlineCode htext
  · intro text htext
    obtain ⟨before, inside, after, hrender, hliteral⟩ := Code.exists_literal htext
    refine ⟨before, inside, after ++ ['\n'], ?_, hliteral⟩
    rw [hrender, List.append_assoc]
  · intro hcalm
    have hquiet := (Code.isLexed_of_read? hruntime).isQuiet hcalm
    exact Code.read_render (Generator.isQuiet_outlineCode hquiet _) (hsound.isNamed_outlineCode hvalid config.disabled)

/-- The lines of a source with quotes, backslashes, a null character before a digit and a combining mark in its texts. -/
def quotingLines : List (List Char) :=
  ["version 1\"\\\x007\u0301", "\x7b", "Ping Low 7 T\" E\\ Was\"", "\x7b", "Body Variable", "\x7b Seen BOOL \x7d", "\x7d",
    "\x7d"].map String.toList

def quotingSource : String :=
  String.ofList (['\n'].intercalate quotingLines)

def quotingTemplate : Template :=
  ⟨"1\"\\\x007\u0301", [⟨"Ping", .low, 7, "T\"", "E\\", some "Was\"", [⟨"Body", .varying, [⟨"Seen", .bool, 6⟩], "Ping", 5⟩], 3⟩]⟩

/-- The source with quotes in its texts is read. -/
theorem parse_quotingSource : parse quotingSource = .ok quotingTemplate := by
  rw [parse, normalize, quotingSource, significantLines_ofList_intercalate (by decide +kernel)]
  decide +kernel

/-- The default path is written in calm characters. -/
theorem isCalmChar_of_default {g : Generator} (hg : Config.toGenerator {} = .ok g) :
    ∀ c ∈ (Code.render g.runtime).toList, Code.isCalmChar c = true := by
  have hcalm : ((Config.toGenerator {}).toOption.map fun g => (Code.render g.runtime).toList.all Code.isCalmChar) =
      some true := by
    decide +kernel
  rw [hg] at hcalm
  exact List.all_eq_true.mp (Option.some.inj hcalm)

/-- A version tag with a quote, a backslash and a NUL is quoted so that it is read back. -/
theorem texts_stay_in_place_of_generate_sample :
    ∃ g out, Config.toGenerator {} = .ok g ∧ parse quotingSource = .ok quotingTemplate ∧
    generate quotingSource {} = .ok out ∧ ∃ header body, out.source.toList = header ++ '\n' :: body ∧ '\n' ∉ header ∧
      (∃ before inside after, body = before ++ ('"' :: inside ++ ['"']) ++ after ∧
        Text.unescape? inside = some ['1', '"', '\\', '\x00', '7', '\u0301']) ∧
      Code.Reader.start.read body = some ⟨.code, [], (Code.strings out.code).map String.toList⟩ := by
  obtain ⟨g, hg⟩ := exists_of_isOk (show (Config.toGenerator {}).isOk = true by decide +kernel)
  obtain ⟨runtime, -, -, rfl⟩ := Config.of_toGenerator hg
  have hnames : Generator.typeNames ⟨{}, runtime⟩ quotingTemplate = [⟨"Ping", "Ping", 3⟩, ⟨"Ping_Body", "Ping.Body", 5⟩] := rfl
  obtain ⟨out, hout, -⟩ := generate_of_clear hg parse_quotingSource (hnames ▸ by decide)
  obtain ⟨header, body, hsource, ⟨-, hheader, -⟩, htexts, hliterals, hread⟩ :=
    texts_stay_in_place_of_generate hg parse_quotingSource hout
  obtain ⟨before, inside, after, hbody, hinside, -⟩ := hliterals _ (htexts quotingTemplate.version List.mem_cons_self)
  have hversion : quotingTemplate.version.toList = ['1', '"', '\\', '\x00', '7', '\u0301'] := by decide
  exact ⟨_, out, hg, parse_quotingSource, hout, header, body, hsource, hheader,
    ⟨before, inside, after, hbody, hversion ▸ hinside⟩, hread (isCalmChar_of_default hg)⟩

end MessageCatalog
