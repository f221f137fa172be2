import ApiInterfaces.Interface.Compilation
import ApiInterfaces.Proofs.Interface.TypeReading

/-!
Members are read back from their text. A key is either a quoted text or a run of word characters,
and no text is written as both. So the keys in the interface of an object differ as the names of
its properties do, and a name leads to the member of its property.
-/

namespace ApiInterfaces

namespace Quoted

/-- The name that a text begins with, and what is left: a text in double quotes up to the first
that no backslash stands before, or else the longest run of word characters, which does not begin
with a digit. -/
def readKey? : List Char → Option (String × List Char)
  | '"' :: rest => (read? '"' rest).map fun (text, after) => (String.ofList text, after)
  | cs =>
    match cs.takeWhile isWordChar with
    | [] => none
    | first :: more =>
      if first.isDigit then none
      else some (String.ofList (first :: more), cs.dropWhile isWordChar)

theorem isWordStart_spec {c : Char} (h : isWordStart c = true) : c ≠ '"' ∧ c.isDigit = false := by
  rw [isWordStart, Bool.or_eq_true, Bool.or_eq_true, decide_eq_true_eq, decide_eq_true_eq] at h
  rcases h with (hletter | rfl) | rfl
  · refine ⟨?_, ?_⟩
    · rintro rfl
      exact absurd hletter (by decide)
    · delta Char.isAlpha Char.isUpper Char.isLower Char.isDigit at *
      grind
  · decide
  · decide

theorem readKey?_key (name : String) {rest : List Char} (hrest : Text.EndsRun isWordChar rest) :
    readKey? ((key name).toList ++ rest) = some (name, rest) := by
  unfold key
  split
  next hword =>
    cases hname : name.toList with
    | nil => simp [hname, isWord] at hword
    | cons first more =>
        rw [hname, isWord, Bool.and_eq_true, List.all_eq_true] at hword
        obtain ⟨hstart, hchars⟩ := hword
        obtain ⟨hquote, hdigit⟩ := isWordStart_spec hstart
        obtain ⟨htake, hdrop⟩ := Text.run_append hchars hrest
        rw [List.cons_append, readKey?]
        · rw [← List.cons_append, htake, hdrop]
          simp [hdigit, ← hname]
        · intro after hstart
          exact hquote (List.cons.inj hstart).1
  next =>
    have htext : (String.ofList (quoted '"' name.toList)).toList ++ rest =
        '"' :: (escape '"' name.toList ++ '"' :: rest) := by
      simp [quoted]
    rw [htext, readKey?, read?_escape (by decide)]
    simp

/-- Different names have different keys. -/
theorem key_injective : Function.Injective key := by
  intro name other h
  have hend : Text.EndsRun isWordChar [] := by simp [Text.EndsRun]
  have hname := readKey?_key name hend
  rw [h, readKey?_key other hend] at hname
  exact (Prod.mk.inj (Option.some.inj hname)).1.symm

end Quoted

/-- The name and the mark of a member at the start of a text, and what is left behind the
colon. -/
def Member.readStart? (cs : List Char) : Option (String × Bool × List Char) := do
  let (name, rest) ← Quoted.readKey? cs
  match rest with
  | '?' :: ':' :: ' ' :: rest => some (name, true, rest)
  | ':' :: ' ' :: rest => some (name, false, rest)
  | _ => none

theorem Member.readStart?_text (m : Member) :
    readStart? m.text.toList = some (m.name, m.optional, m.type.text.toList ++ [';']) := by
  have hends {c : Char} (hc : Quoted.isWordChar c = false) (rest : List Char) :=
    Text.endsRun_cons hc rest
  cases hoptional : m.optional with
  | true =>
      have htext : m.text.toList = (Quoted.key m.name).toList ++
          '?' :: ':' :: ' ' :: (m.type.text.toList ++ [';']) := by
        simp [text, hoptional]
      rw [htext, readStart?, Quoted.readKey?_key m.name (hends (by decide) _)]
      rfl
  | false =>
      have htext : m.text.toList = (Quoted.key m.name).toList ++
          ':' :: ' ' :: (m.type.text.toList ++ [';']) := by
        simp [text, hoptional]
      rw [htext, readStart?, Quoted.readKey?_key m.name (hends (by decide) _)]
      rfl

/-! The members of an interface. -/

namespace Shape

/-- The member of a property, compiled under the interface `name` after the names of a log. -/
def memberOf (name : String) (required : List String) (property : String) (shape : Shape)
    (log : NameLog) : Member where
  name := property
  type := (typeOf name property shape log).value
  optional := property ∉ required
  docs := DocBlock.ofDocs? shape.docs

/-- The properties in front of a property have claimed their names when it is compiled. -/
theorem value_membersOf_append (name : String) (required : List String)
    (before : List (String × Shape)) (property : String) (shape : Shape)
    (after : List (String × Shape)) (log : NameLog) :
    ∃ behind, (membersOf name required (before ++ (property, shape) :: after) log).value =
      (membersOf name required before log).value ++
        memberOf name required property shape (membersOf name required before log).log ::
        behind := by
  induction before generalizing log with
  | nil => exact ⟨_, rfl⟩
  | cons first before ih =>
      obtain ⟨key, value⟩ := first
      obtain ⟨behind, hbehind⟩ := ih (typeOf name key value log).log
      refine ⟨behind, ?_⟩
      simp only [List.cons_append, membersOf, Compiled.cons, Compiled.map, hbehind]

theorem names_membersOf (name : String) (required : List String)
    (properties : List (String × Shape)) (log : NameLog) :
    (membersOf name required properties log).value.map (·.name) = Keyed.keys properties := by
  induction properties generalizing log with
  | nil => rfl
  | cons first rest ih =>
      obtain ⟨property, shape⟩ := first
      simp only [membersOf, Compiled.cons, Compiled.map, List.map_cons, Keyed.keys] at ih ⊢
      rw [ih]

theorem member?_declaration (name : String) (additional : Bool) (docs : ShapeDocs)
    (required : List String) {before after : List (String × Shape)} {property : String}
    {shape : Shape} (h : (Keyed.keys (before ++ (property, shape) :: after)).Nodup)
    (log : NameLog) :
    (declaration name additional docs (membersOf name required
      (before ++ (property, shape) :: after) log).value).member? property =
      some (memberOf name required property shape
        (membersOf name required before log).log) := by
  obtain ⟨behind, hmembers⟩ :=
    value_membersOf_append name required before property shape after log
  refine List.find?_eq_some_iff_append.mpr ⟨by simp [memberOf], _, behind, hmembers, ?_⟩
  intro m hm
  have hname : m.name ∈ Keyed.keys before := by
    rw [← names_membersOf name required before log]
    exact List.mem_map_of_mem hm
  rw [Keyed.keys, List.map_append, List.nodup_append] at h
  have hne := h.2.2 m.name hname property List.mem_cons_self
  simpa using hne

end Shape

open Shape in
/-- The text of a member begins with its key, from which its name and its mark are read back, and
goes on with its type. In the interface of an object no key stands twice, there is one for each
property, and the name of a property leads to the member compiled from it. -/
theorem Member.keys_read_back :
    (∀ m : Member, readStart? m.text.toList =
      some (m.name, m.optional, m.type.text.toList ++ [';'])) ∧
    ∀ (base : String) (properties : List (String × Shape)) (required : List String)
      (additional : Bool) (docs : ShapeDocs) (log : NameLog), (Keyed.keys properties).Nodup →
      let compiled := declareWith base additional docs
        (fun name => membersOf name required properties) log
      ∃ own nested, compiled.lifted = own :: nested ∧ own.name = compiled.value ∧
        (own.members.map fun m => Quoted.key m.name).Nodup ∧
        own.members.map (·.name) = Keyed.keys properties ∧
        ∀ before property shape after, properties = before ++ (property, shape) :: after →
          own.member? property = some (memberOf own.name required property shape
            (membersOf own.name required before (log.claim base).2).log) := by
  refine ⟨Member.readStart?_text, ?_⟩
  intro base properties required additional docs log hkeys compiled
  let name := (log.claim base).1
  let inner := membersOf name required properties (log.claim base).2
  have hnames : inner.value.map (·.name) = Keyed.keys properties :=
    names_membersOf name required properties _
  refine ⟨declaration name additional docs inner.value, inner.lifted, rfl, rfl, ?_, hnames, ?_⟩
  · have hkeysOf : (inner.value.map fun m => Quoted.key m.name) =
        (Keyed.keys properties).map Quoted.key := by
      rw [← hnames, List.map_map]
      rfl
    rw [declaration, hkeysOf]
    exact hkeys.map Quoted.key_injective
  · rintro before property shape after rfl
    exact member?_declaration name additional docs required hkeys _

open Shape in
/-- A name in quotes and the name itself have different keys, and the name leads to its own
member. -/
theorem Member.keys_read_back_quotes :
    let properties := [("\"id\"", Shape.primitive .string {}), ("id", .object [] [] false {}),
      ("", .unspecified {})]
    let compiled := declareWith "Pet" false {} (fun name => membersOf name ["id"] properties) {}
    (Keyed.keys properties).Nodup ∧ ∃ own nested, compiled.lifted = own :: nested ∧
      (own.members.map fun m => Quoted.key m.name).Nodup ∧
      own.members.map (·.name) = ["\"id\"", "id", ""] ∧
      (own.member? "id").map Member.text = some "id: PetId;" := by
  intro properties compiled
  have hkeys : (Keyed.keys properties).Nodup := by decide
  obtain ⟨own, nested, hlifted, hname, hnodup, hnames, hmember⟩ :=
    Member.keys_read_back.2 "Pet" properties ["id"] false {} {} hkeys
  have hown : own.name = "Pet" := hname.trans (by decide +kernel)
  refine ⟨hkeys, own, nested, hlifted, hnodup, hnames, ?_⟩
  rw [hmember [("\"id\"", .primitive .string {})] "id" (.object [] [] false {})
    [("", .unspecified {})] rfl, hown]
  decide +kernel

end ApiInterfaces
