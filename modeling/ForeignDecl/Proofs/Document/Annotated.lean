import ForeignDecl.Proofs.Document.JsonForm
import ForeignDecl.Proofs.Json.Numerals

/-!
# Documents with comments

The extraction writes no comments, but whoever annotates a document may put some before, between and
behind its entries. `DocumentWriter.annotated` is the protocol for this, in which comments and entries
are items alike: one separator between any two of them, and none between the namespace and the first.

In the JSON form the separator behind the namespace waits for the first entry and not for the first
item. A comment that comes first is therefore glued to the namespace, and such a document is no JSON;
every other one is the array of its items (`JsonForm.annotated_isJson`).
-/

set_option autoImplicit false

namespace ForeignDecl

open Json

/-! ## Items -/

/-- An entry of a document, or a comment in between. An extraction makes no comments; they are for
whoever writes a document by hand. -/
inductive Item where
  | entry (e : Entry)
  | comment (text : String)

namespace Item

/-- The value of an item. -/
def toJson : Item → Json
  | entry e => e.toJson
  | comment text => tagged "comment" [("text", .string text)]

/-- Whether an item is a comment. -/
def isComment : Item → Bool
  | entry _ => false
  | comment _ => true

/-- A value of a variable that is no string literal is a number of the standard, or gets quotation
marks. Here numbers are those of the JSON standard, with a fraction and an exponent, as any document may
have them. -/
def HasValue : Item → Prop
  | entry (.var _ _ value? _ isString) =>
    ∀ value ∈ value?, isString = false → value ∈ nonNumericValues ∨ IsNumeral value
  | _ => True

end Item

namespace DocumentWriter

variable {σ : Type}

/-- Write an item. -/
def item (w : DocumentWriter σ) : Item → Emit σ Unit
  | .entry e => w.entry e
  | .comment text => w.comment text

/-- Write items, with a separator before every one but the first. -/
def items (w : DocumentWriter σ) : List Item → Emit σ Unit
  | [] => pure ()
  | [i] => w.item i
  | i :: is => do
    w.item i
    w.separator
    w.items is

/-- Write a document with comments. The protocol is that of an extraction with items in the place of
entries, so what is said about it says where a comment may stand. -/
def annotated (w : DocumentWriter σ) (namespaceName? : Option String) (is : List Item) :
    Emit σ Unit := do
  w.header
  match namespaceName? with
  | some name => w.announce name
  | none => pure ()
  w.items is
  w.footer

end DocumentWriter

/-! ## Items are read back -/

/-- A variable is read back with its value as it was written. -/
theorem reads_varToJson (i : EntryInfo) (type : TypeRef) (value? : Option String)
    (isExternal isString : Bool)
    (h : (Item.entry (.var i type value? isExternal isString)).HasValue) :
    Reads (varToJson i type value? isExternal isString) := by
  have hvalue : ∀ m ∈ constantMember value? isString, Reads m.2 := by
    unfold constantMember
    split
    · simp
    · next value =>
      split_ifs with hempty hquoted
      · simp
      · simpa using reads_string value
      · simp only [Bool.or_eq_true, decide_eq_true_eq, not_or, Bool.not_eq_true] at hquoted
        obtain ⟨rfl, hnumeric⟩ := hquoted
        have hnumeral : IsNumeral value := (h value rfl rfl).resolve_left hnumeric
        simpa using reads_numeral hnumeral
  unfold varToJson tagged
  refine reads_object ?_
  simp only [List.forall_mem_cons, List.forall_mem_append]
  exact ⟨reads_string _, ⟨reads_string _, (wellFormed_nat _).reads, reads_string _,
    type.wellFormed_toJson.reads, by simp⟩, hvalue⟩

/-- Each item is read back as the value that it is. -/
theorem Item.reads {i : Item} (h : i.HasValue) : Reads i.toJson := by
  cases i with
  | comment text => exact reads_object (by simp [reads_string])
  | entry e =>
    change Reads e.toJson
    cases e with
    | var info type value? isExternal isString => exact reads_varToJson _ _ _ _ _ h
    | _ => exact WellFormed.reads (Entry.wellFormed_toJson (by trivial))

namespace Json

/-- Behind an item there has to be a comma or the closing bracket, and the brace of another object is
neither. -/
theorem items?_glued {j : Json} (h : Reads j) (behind : List Char) {fuel : Nat}
    (hfuel : j.render.length + 1 < fuel) :
    items? fuel (j.render.toList ++ '\x7b' :: behind) = none := by
  obtain ⟨fuel, rfl⟩ : ∃ n, fuel = n + 1 := ⟨fuel - 1, by omega⟩
  have hends : EndsNumber ('\x7b' :: behind) :=
    .cons (by decide) (by decide) (by decide) (by decide)
  have hvalue := h.value fuel ('\x7b' :: behind) (by omega) hends
  have hbrace : skipBlank ('\x7b' :: behind) = '\x7b' :: behind := skipBlank_cons (by decide) _
  simp [items?, hvalue, hbrace]

/-- **A document in which an object is glued to the first item is not read**, whatever follows. So a
writer that forgets one comma has not written a document with a wrong member in it, but none. -/
theorem ofString?_glued {j : Json} (h : Reads j) (members : List (String × Json)) (more : String) :
    ofString? ("[\n" ++ (j.render ++ ((object members).render ++ more))) = none := by
  obtain ⟨behind, htext⟩ : ∃ behind,
      ("[\n" ++ (j.render ++ ((object members).render ++ more))).toList =
        '[' :: '\n' :: (j.render.toList ++ '\x7b' :: behind) :=
    ⟨(" " ++ renderMembers members ++ " \x7d" ++ more).toList, by simp [render]⟩
  have hlength : j.render.length + 1 <
      ('\n' :: (j.render.toList ++ '\x7b' :: behind)).length + 1 := by
    simp only [List.length_cons, List.length_append, String.length_toList]
    omega
  have hitems := items?_glued h behind hlength
  obtain ⟨c, cs, hhead, hblank, hbracket⟩ := h.head
  have hvalue : value? (('[' :: '\n' :: (j.render.toList ++ '\x7b' :: behind)).length + 1)
      ('[' :: '\n' :: (j.render.toList ++ '\x7b' :: behind)) = none := by
    rw [List.length_cons, value?_bracket, skipBlank_blank rfl]
    rw [hhead, List.cons_append] at hitems ⊢
    rw [skipBlank_cons hblank]
    split
    · next heq => exact absurd (List.cons.inj heq).1 hbracket
    · rw [hitems]
      rfl
  rw [ofString?, ofList?, htext, hvalue]

end Json

/-! ## What is written -/

namespace JsonForm

/-- What an item has in front of it where the separator of the namespace may still be due. -/
def dueBefore (due : Bool) : Item → String
  | .entry _ => if due then itemSeparator else ""
  | .comment _ => ""

/-- The text of items where the separator of the namespace may still be due. Comments leave it due, and
an entry has it written. The flag is that of the page, and this function is the only place where it is
followed through a document. -/
def itemsText : Bool → List Item → String
  | _, [] => ""
  | due, [i] => dueBefore due i ++ i.toJson.render
  | due, i :: is =>
    dueBefore due i ++ i.toJson.render ++ itemSeparator ++ itemsText (due && i.isComment) is

/-- The page after items, but for their text. -/
def afterItems (is : List Item) (p : Page) : Page :=
  { p with afterNamespace := p.afterNamespace && is.all Item.isComment }

/-- One item: what was due before it, and its value. -/
theorem item_eq {p : Page} (hlimit : p.sink.limit? = none) (i : Item) :
    writer.item i p =
      .ok () ((afterItems [i] p).write (dueBefore p.afterNamespace i ++ i.toJson.render)) := by
  cases i with
  | entry e =>
    have hperform : writer.item (.entry e) p = _ := perform_entry hlimit e
    simpa [afterItems, dueBefore, Item.isComment, Item.toJson] using hperform
  | comment text =>
    have hput : writer.item (.comment text) p = .ok () (p.write (Item.comment text).toJson.render) :=
      Page.put_of_unlimited hlimit _
    simpa [afterItems, dueBefore, Item.isComment] using hput

/-- **What any items leave on a page**: the text that `itemsText` says, and the flag that is left. -/
theorem items_eq (is : List Item) : ∀ {p : Page}, p.sink.limit? = none →
    writer.items is p = .ok () ((afterItems is p).write (itemsText p.afterNamespace is)) := by
  induction is with
  | nil =>
    intro p hlimit
    simp [DocumentWriter.items, afterItems, itemsText, Page.write, pure, EStateM.pure]
  | cons i is ih =>
    intro p hlimit
    have hitem := item_eq hlimit i
    cases is with
    | nil => simpa [DocumentWriter.items, itemsText] using hitem
    | cons i' is =>
      have hseparator : ∀ {q : Page}, q.sink.limit? = none →
          writer.separator q = .ok () (q.write itemSeparator) := perform_separator
      rw [DocumentWriter.items]
      · simp only [bind, EStateM.bind, hitem]
        rw [hseparator (by exact hlimit)]
        simp only []
        rw [ih (by exact hlimit)]
        simp [afterItems, itemsText, Page.write, Bool.and_assoc, ByteArray.append_assoc]
      · simp

/-- When nothing is due, items are joined by separators as they should be. -/
theorem itemsText_false (is : List Item) :
    itemsText false is = joined itemSeparator (is.map Item.toJson) := by
  have hnone : ∀ i, dueBefore false i = "" := fun i => by cases i <;> rfl
  induction is with
  | nil => rfl
  | cons i is ih =>
    cases is with
    | nil => simp [itemsText, joined, continued, hnone]
    | cons i' is =>
      rw [itemsText, hnone, Bool.false_and, ih]
      · simp [joined, continued, String.append_assoc]
      · simp

/-- When the separator is due and an entry comes first, it is written in front of it, as it should be
too. -/
theorem itemsText_true {is : List Item} (h : is.head?.any Item.isComment = false) :
    itemsText true is = continued itemSeparator (is.map Item.toJson) := by
  cases is with
  | nil => rfl
  | cons i is =>
    cases i with
    | comment text => simp [Item.isComment] at h
    | entry e =>
      cases is with
      | nil => simp [itemsText, dueBefore, continued]
      | cons i' is =>
        rw [itemsText, Item.isComment, Bool.and_false, itemsText_false]
        · simp [dueBefore, joined, continued, String.append_assoc]
        · simp

/-- No separator is written in front of a comment. Whether one is due does not matter, and what follows
does not matter either. -/
theorem itemsText_comment (due : Bool) (text : String) (is : List Item) :
    ∃ more, itemsText due (.comment text :: is) = (Item.comment text).toJson.render ++ more := by
  cases is with
  | nil => exact ⟨"", by simp [itemsText, dueBefore]⟩
  | cons i is =>
    refine ⟨itemSeparator ++ itemsText (due && true) (i :: is), ?_⟩
    rw [itemsText]
    · simp [dueBefore, Item.isComment, String.append_assoc]
    · simp

/-- The text of a document with comments. -/
def annotatedText (namespaceName? : Option String) (is : List Item) : String :=
  "[\n" ++ (joined itemSeparator (namespaceItems namespaceName?) ++
    (itemsText namespaceName?.isSome is ++ "\n]\n"))

/-- **Nothing fails**, and this is what is written. -/
theorem annotated_eq (namespaceName? : Option String) (is : List Item) :
    ∃ p, writer.annotated namespaceName? is {} = .ok () p ∧
      p.sink.contents = (annotatedText namespaceName? is).toUTF8 := by
  have hempty : ({} : Page).sink.limit? = none := rfl
  have hheader : writer.header {} = .ok () (Page.write "[\n" {}) := Page.put_of_unlimited hempty _
  have hfooter : ∀ {q : Page}, q.sink.limit? = none →
      writer.footer q = .ok () (q.write "\n]\n") := fun h => Page.put_of_unlimited h _
  cases namespaceName? with
  | none =>
    have hitems := items_eq is (p := Page.write "[\n" {}) rfl
    simp only [DocumentWriter.annotated, bind, EStateM.bind, hheader, hitems]
    rw [hfooter (by rfl)]
    refine ⟨_, rfl, ?_⟩
    simp [annotatedText, Page.write, afterItems, namespaceItems, joined, ByteArray.append_assoc]
  | some name =>
    have hannounce : writer.announce name (Page.write "[\n" {}) = _ := perform_announce (by rfl) name
    simp only [DocumentWriter.annotated, bind, EStateM.bind, hheader, hannounce]
    rw [items_eq is (by rfl)]
    simp only []
    rw [hfooter (by rfl)]
    refine ⟨_, rfl, ?_⟩
    simp [annotatedText, Page.write, afterItems, namespaceItems, joined, continued,
      ByteArray.append_assoc]

/-- **A document with comments is the array of its items**, in order and each read back as it was
given, unless a comment follows the namespace right away. Then it is no JSON. -/
theorem annotated_isJson (namespaceName? : Option String) (is : List Item)
    (h : ∀ i ∈ is, i.HasValue) :
    ∃ p text, writer.annotated namespaceName? is {} = .ok () p ∧
      p.sink.contents = text.toUTF8 ∧
      Json.ofString? text =
        if namespaceName?.isSome && is.head?.any Item.isComment then none
        else some (.array (namespaceItems namespaceName? ++ is.map Item.toJson)) := by
  obtain ⟨p, hp, hcontents⟩ := annotated_eq namespaceName? is
  refine ⟨p, _, hp, hcontents, ?_⟩
  have hitems : ∀ j ∈ is.map Item.toJson, Reads j := by
    simpa using fun i hi => Item.reads (h i hi)
  cases namespaceName? with
  | none =>
    have hread := ofString?_of_reads hitems
    simpa [annotatedText, namespaceItems, joined, itemsText_false, itemSeparator,
      String.append_assoc] using hread
  | some name =>
    have hname : Reads (tagged "namespace" [("name", .string name)]) :=
      reads_object (by simp [reads_string])
    by_cases hfirst : is.head?.any Item.isComment = true
    · -- The comment is glued to the namespace.
      obtain ⟨text, is, rfl⟩ : ∃ text is', is = .comment text :: is' := by
        cases is with
        | nil => simp at hfirst
        | cons i is =>
          cases i with
          | entry e => simp [Item.isComment] at hfirst
          | comment text => exact ⟨text, is, rfl⟩
      obtain ⟨more, hmore⟩ := itemsText_comment true text is
      have hglued := ofString?_glued hname (("tag", .string "comment") :: [("text", .string text)])
        (more ++ "\n]\n")
      simpa [annotatedText, namespaceItems, joined, continued, hmore, Item.isComment, Item.toJson,
        tagged, String.append_assoc] using hglued
    · rw [Bool.not_eq_true] at hfirst
      have hread : ofString? _ = _ := ofString?_of_reads (List.forall_mem_cons.2 ⟨hname, hitems⟩)
      simpa [annotatedText, namespaceItems, joined, continued, itemsText_true hfirst, hfirst,
        itemSeparator, String.append_assoc] using hread

/-- A value with an exponent, and a comment behind the first entry. -/
theorem annotated_isJson_behind :
    ∃ p text, writer.annotated (some "ffi")
        [.entry (.var ⟨"E", 0, "a.h:1:1"⟩ (.simple "e_t") (some "1e5") false false),
          .comment "a \"quoted\" word"] {} = .ok () p ∧
      p.sink.contents = text.toUTF8 ∧
      Json.ofString? text = some (.array
        [tagged "namespace" [("name", .string "ffi")],
          tagged "const" [("name", .string "E"), ("ns", .number "0"),
            ("location", .string "a.h:1:1"), ("type", tagged "e_t" []), ("value", .number "1e5")],
          tagged "comment" [("text", .string "a \"quoted\" word")]]) := by
  have hnumeral : IsNumeral "1e5" :=
    ⟨[], ['1'], [], ['e', '5'], rfl, .inl rfl, .inr ⟨'1', [], rfl, by decide, by simp⟩, .inl rfl,
      .inr ⟨'e', [], ['5'], rfl, .inl rfl, .inl rfl, by simp, by simp⟩⟩
  obtain ⟨p, text, hp, hcontents, hread⟩ := annotated_isJson (some "ffi")
    [.entry (.var ⟨"E", 0, "a.h:1:1"⟩ (.simple "e_t") (some "1e5") false false),
      .comment "a \"quoted\" word"] (by simp [Item.HasValue, hnumeral])
  exact ⟨p, text, hp, hcontents, by rw [hread]; rfl⟩

/-- A comment right behind the namespace, and the document is not the array of its items. -/
theorem annotated_notJson_first :
    ¬ ∃ p text, writer.annotated (some "ffi") [.comment "c"] {} = .ok () p ∧
      p.sink.contents = text.toUTF8 ∧
      Json.ofString? text = some (.array (namespaceItems (some "ffi") ++
        [Item.comment "c"].map Item.toJson)) := by
  rintro ⟨p, text, hp, hcontents, hread⟩
  obtain ⟨p', hp', hcontents'⟩ := annotated_eq (some "ffi") [.comment "c"]
  rw [hp'] at hp
  cases hp
  obtain rfl : annotatedText (some "ffi") [.comment "c"] = text := by
    rw [hcontents'] at hcontents
    exact String.toByteArray_inj.1 hcontents
  have hname : Reads (tagged "namespace" [("name", .string "ffi")]) :=
    reads_object (by simp [reads_string])
  have hnone : Json.ofString? (annotatedText (some "ffi") [.comment "c"]) = none := by
    have hglued := ofString?_glued hname [("tag", .string "comment"), ("text", .string "c")] "\n]\n"
    simpa [annotatedText, namespaceItems, joined, continued, itemsText, dueBefore, Item.toJson,
      tagged, String.append_assoc] using hglued
  rw [hnone] at hread
  simp at hread

end JsonForm

end ForeignDecl
