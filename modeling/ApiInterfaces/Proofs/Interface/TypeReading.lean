import ApiInterfaces.Interface.Text
import ApiInterfaces.Proofs.Interface.Forest
import ApiInterfaces.Proofs.Interface.Scan

/-!
Types are read back from their text. A reader cuts the text into tokens, and the tokens drive a
machine that keeps the alternatives in front of each open parenthesis. What it reads is the type
in normal form, so types that differ in more than the nesting of unions differ in their text.
-/

namespace ApiInterfaces

namespace Text

/-- A run of characters of the class in front of the text does not go on into it. -/
def EndsRun (p : Char → Bool) (cs : List Char) : Prop := ∀ c ∈ cs.head?, p c = false

variable {p : Char → Bool}

theorem endsRun_cons {c : Char} (h : p c = false) (rest : List Char) : EndsRun p (c :: rest) :=
  fun d hd => by
    obtain rfl := Option.some.inj hd
    exact h

theorem run_append {run rest : List Char} (hrun : ∀ c ∈ run, p c = true) (hrest : EndsRun p rest) :
    (run ++ rest).takeWhile p = run ∧ (run ++ rest).dropWhile p = rest := by
  have hstop : rest.takeWhile p = [] ∧ rest.dropWhile p = rest := by
    cases rest with
    | nil => exact ⟨rfl, rfl⟩
    | cons c rest => simp [hrest c rfl]
  rw [List.takeWhile_append_of_pos hrun, List.dropWhile_append_of_pos hrun, hstop.1, hstop.2,
    List.append_nil]
  exact ⟨rfl, rfl⟩

end Text

theorem Quoted.length_of_read? {quote : Char} {cs text rest : List Char}
    (h : read? quote cs = some (text, rest)) : rest.length < cs.length := by
  fun_induction read? quote cs generalizing text with
  | case1 => simp at h
  | case2 c more ih =>
      obtain ⟨⟨inner, after⟩, hinner, heq⟩ := Option.map_eq_some_iff.mp h
      obtain ⟨-, rfl⟩ := Prod.mk.inj heq
      have hlength := ih hinner
      simp only [List.length_cons]
      omega
  | case3 more _ =>
      obtain ⟨-, rfl⟩ := Prod.mk.inj (Option.some.inj h)
      exact Nat.lt_succ_self _
  | case4 c more _ _ ih =>
      obtain ⟨⟨inner, after⟩, hinner, heq⟩ := Option.map_eq_some_iff.mp h
      obtain ⟨-, rfl⟩ := Prod.mk.inj heq
      exact Nat.lt_succ_of_lt (ih hinner)

namespace TypeExpr

/-! Normal forms. -/

/-- What a type offers to choose from; only a union offers more than itself. -/
def alternatives : TypeExpr → List TypeExpr
  | .union types => types
  | type => [type]

mutual

/-- The type with the alternatives of nested unions in place of them. A union of one type is
that type, and one of none is anything. -/
def normalForm : TypeExpr → TypeExpr
  | .array item => .array item.normalForm
  | .union types =>
    match normalAlternatives types with
    | [] => .any
    | [only] => only
    | types => .union types
  | type => type

def normalAlternatives : List TypeExpr → List TypeExpr
  | [] => []
  | type :: rest => type.normalForm.alternatives ++ normalAlternatives rest

end

/-- The union of some alternatives and a last one, which is no union if it is the only one. -/
def join (before : List TypeExpr) (last : TypeExpr) : TypeExpr :=
  if before = [] then last else .union (before ++ [last])

/-- Unions have at least two alternatives, and none of these is a union. -/
inductive IsNormal : TypeExpr → Prop
  | string : IsNormal .string
  | number : IsNormal .number
  | boolean : IsNormal .boolean
  | any : IsNormal .any
  | array {item : TypeExpr} : item.IsNormal → IsNormal (.array item)
  | union {types : List TypeExpr} : 2 ≤ types.length → (∀ type ∈ types, type.isUnion = false) →
      (∀ type ∈ types, type.IsNormal) → IsNormal (.union types)
  | literal (text : String) : IsNormal (.literal text)
  | named (name : String) : IsNormal (.named name)

theorem alternatives_of_not_isUnion {type : TypeExpr} (h : type.isUnion = false) :
    type.alternatives = [type] := by
  cases type with
  | union types => simp [isUnion] at h
  | _ => rfl

theorem IsNormal.of_mem_alternatives {type other : TypeExpr} (h : type.IsNormal)
    (hother : other ∈ type.alternatives) : other.isUnion = false ∧ other.IsNormal := by
  cases h with
  | union _ hunion hnormal => exact ⟨hunion other hother, hnormal other hother⟩
  | array hitem =>
      obtain rfl := List.mem_singleton.mp hother
      exact ⟨rfl, .array hitem⟩
  | _ =>
      obtain rfl := List.mem_singleton.mp hother
      exact ⟨rfl, by constructor⟩

theorem eq_of_singleton_eq_append {type last : TypeExpr} {before : List TypeExpr}
    (h : [type] = before ++ [last]) : before = [] ∧ last = type := by
  have happend : [] ++ [type] = before ++ [last] := h
  obtain ⟨hbefore, hlast⟩ := List.append_inj' happend rfl
  exact ⟨hbefore.symm, (List.singleton_inj.mp hlast).symm⟩

/-- Cut behind all but the last of its alternatives, a normal form is put together again. -/
theorem IsNormal.join_eq {type last : TypeExpr} {before : List TypeExpr} (h : type.IsNormal)
    (hsplit : type.alternatives = before ++ [last]) : join before last = type := by
  cases h with
  | @union types htwo _ _ =>
      obtain rfl : types = before ++ [last] := hsplit
      have hbefore : before ≠ [] := by
        rintro rfl
        simp at htwo
      rw [join, if_neg hbefore]
  | _ =>
      obtain ⟨rfl, rfl⟩ := eq_of_singleton_eq_append hsplit
      rfl

mutual

theorem isNormal_normalForm (type : TypeExpr) : type.normalForm.IsNormal := by
  cases type with
  | array item => exact .array item.isNormal_normalForm
  | union types =>
      have hnormal := isNormal_of_mem_normalAlternatives types
      rw [normalForm]
      split
      next => exact .any
      next only hall => exact (hnormal only (by simp [hall])).2
      next hnil hone =>
        refine .union ?_ (fun type htype => (hnormal type htype).1)
          fun type htype => (hnormal type htype).2
        match hall : normalAlternatives types with
        | [] => exact absurd hall hnil
        | [only] => exact absurd hall (hone only)
        | _ :: _ :: _ => simp
  | _ => constructor

theorem isNormal_of_mem_normalAlternatives (types : List TypeExpr) :
    ∀ type ∈ normalAlternatives types, type.isUnion = false ∧ type.IsNormal := by
  cases types with
  | nil => simp [normalAlternatives]
  | cons first rest =>
      intro type htype
      rcases List.mem_append.mp htype with htype | htype
      · exact first.isNormal_normalForm.of_mem_alternatives htype
      · exact isNormal_of_mem_normalAlternatives rest type htype

end

/-! The reader. -/

/-- What a type is written with. Brackets come in pairs. -/
inductive Token where
  | word (name : String)
  | quoted (text : String)
  | bar
  | openParen
  | closeParen
  | brackets

/-- The characters of a word: none that is blank, quotes, groups, or divides alternatives. -/
def isNameChar (c : Char) : Bool :=
  !Unicode.isBlank c && !(['\'', '"', '[', ']', '(', ')', '|'].contains c)

/-- The tokens of a text. A quoted text goes up to the first quote that no backslash stands
before, a word as far as it can. -/
def tokens? : List Char → Option (List Token)
  | [] => some []
  | '|' :: rest => (tokens? rest).map (.bar :: ·)
  | '(' :: rest => (tokens? rest).map (.openParen :: ·)
  | ')' :: rest => (tokens? rest).map (.closeParen :: ·)
  | '[' :: ']' :: rest => (tokens? rest).map (.brackets :: ·)
  | c :: rest =>
    if Unicode.isBlank c then tokens? rest
    else if c = '\'' ∨ c = '"' then
      match h : Quoted.read? c rest with
      | none => none
      | some (text, after) =>
        have := Quoted.length_of_read? h
        (tokens? after).map (.quoted (String.ofList text) :: ·)
    else if isNameChar c then
      have := (List.dropWhile_sublist (l := rest) isNameChar).length_le
      (tokens? (rest.dropWhile isNameChar)).map
        (.word (String.ofList (c :: rest.takeWhile isNameChar)) :: ·)
    else none
termination_by cs => cs.length
decreasing_by all_goals (simp only [List.length_cons]; omega)

/-- The type that a word stands for. -/
def ofWord : String → TypeExpr
  | "string" => .string
  | "number" => .number
  | "boolean" => .boolean
  | "any" => .any
  | name => .named name

/-- How far a type has been read. -/
structure Reading where
  /-- What stands in front of each open parenthesis, innermost first. -/
  outer : List (List TypeExpr)
  /-- The alternatives that a bar has ended since then. -/
  before : List TypeExpr
  /-- The alternative being read, none where one is to begin. -/
  current : Option TypeExpr

namespace Reading

def step? : Reading → Token → Option Reading
  | ⟨outer, before, none⟩, .word name => some ⟨outer, before, some (ofWord name)⟩
  | ⟨outer, before, none⟩, .quoted text => some ⟨outer, before, some (.literal text)⟩
  | ⟨outer, before, none⟩, .openParen => some ⟨before :: outer, [], none⟩
  | ⟨outer, before, some current⟩, .bar => some ⟨outer, before ++ [current], none⟩
  | ⟨outer, before, some current⟩, .brackets => some ⟨outer, before, some (.array current)⟩
  | ⟨front :: outer, before, some current⟩, .closeParen =>
    some ⟨outer, front, some (join before current)⟩
  | _, _ => none

/-- Reads on. -/
def run? (r : Reading) (cs : List Char) : Option Reading := (tokens? cs).bind (·.foldlM step? r)

/-- The type read, when it is complete. -/
def result? : Reading → Option TypeExpr
  | ⟨[], before, some last⟩ => some (join before last)
  | _ => none

end Reading

/-- The type that a whole text is read as. -/
def read? (text : String) : Option TypeExpr :=
  (Reading.run? ⟨[], [], none⟩ text.toList).bind Reading.result?

/-- A word that stands for no type but the one named so. -/
structure IsTypeName (name : String) : Prop where
  nonempty : name.toList ≠ []
  chars : ∀ c ∈ name.toList, isNameChar c = true
  notWord : name ∉ ["string", "number", "boolean", "any"]

/-! Reading token by token. -/

/-- Where no single mark stands, a blank, a quoted text or a word is read. -/
theorem tokens?_cons {c : Char} (h : c ∉ ['|', '(', ')', '[']) (rest : List Char) :
    tokens? (c :: rest) =
      if Unicode.isBlank c then tokens? rest
      else if c = '\'' ∨ c = '"' then
        (Quoted.read? c rest).bind fun (text, after) =>
          (tokens? after).map (.quoted (String.ofList text) :: ·)
      else if isNameChar c then
        (tokens? (rest.dropWhile isNameChar)).map
          (.word (String.ofList (c :: rest.takeWhile isNameChar)) :: ·)
      else none := by
  simp only [List.mem_cons, List.not_mem_nil, or_false, not_or] at h
  obtain ⟨hbar, hopen, hclose, hbracket⟩ := h
  rw [tokens?]
  · split
    next => rfl
    next =>
      split
      next =>
        split
        next hnone => simp [hnone]
        next text after hsome => simp [hsome]
      next => rfl
  · exact hbar
  · exact hopen
  · exact hclose
  · intro after hstart
    exact absurd hstart hbracket

/-- The text is read as the token, whatever stands behind it. -/
def Marks (text : List Char) (token : Token) : Prop :=
  ∀ rest, tokens? (text ++ rest) = (tokens? rest).map (token :: ·)

theorem marks_bar : Marks " | ".toList .bar := fun rest => by
  have hblank (rest : List Char) : tokens? (' ' :: rest) = tokens? rest := by
    rw [tokens?_cons (by decide), if_pos (by decide)]
  have htext : " | ".toList ++ rest = ' ' :: '|' :: ' ' :: rest := rfl
  rw [htext, hblank, tokens?, hblank]

theorem marks_openParen : Marks "(".toList .openParen := fun rest => by
  have htext : "(".toList ++ rest = '(' :: rest := rfl
  rw [htext, tokens?]

theorem marks_closeParen : Marks ")".toList .closeParen := fun rest => by
  have htext : ")".toList ++ rest = ')' :: rest := rfl
  rw [htext, tokens?]

theorem marks_brackets : Marks "[]".toList .brackets := fun rest => by
  have htext : "[]".toList ++ rest = '[' :: ']' :: rest := rfl
  rw [htext, tokens?]

theorem marks_literal (text : String) : Marks (Quoted.literal text).toList (.quoted text) :=
  fun rest => by
    have htext : (Quoted.literal text).toList ++ rest =
        '\'' :: (Quoted.escape '\'' text.toList ++ '\'' :: rest) := by
      simp [Quoted.literal, Quoted.quoted]
    rw [htext, tokens?_cons (by decide), if_neg (by decide), if_pos (.inl rfl),
      Quoted.read?_escape (by decide)]
    simp

theorem tokens?_word {name : List Char} (hname : name ≠ [])
    (hchars : ∀ c ∈ name, isNameChar c = true) {rest : List Char}
    (hrest : Text.EndsRun isNameChar rest) :
    tokens? (name ++ rest) = (tokens? rest).map (.word (String.ofList name) :: ·) := by
  cases name with
  | nil => exact absurd rfl hname
  | cons c name =>
      have hc : isNameChar c = true := hchars c List.mem_cons_self
      have hmarks : c ∉ ['|', '(', ')', '['] := Scan.not_mem_of_class hc (by decide)
      have hquotes : c ∉ ['\'', '"'] := Scan.not_mem_of_class hc (by decide)
      have hblank : Unicode.isBlank c = false := by
        simpa using (Bool.and_eq_true_iff.mp hc).1
      have hinside : ∀ d ∈ name, isNameChar d = true := fun d hd =>
        hchars d (List.mem_cons_of_mem c hd)
      obtain ⟨htake, hdrop⟩ := Text.run_append hinside hrest
      rw [List.cons_append, tokens?_cons hmarks, if_neg (by simp [hblank]),
        if_neg (by simpa using hquotes), if_pos hc, htake, hdrop]

/-- The text takes the reader from one state to another, whatever stands behind it. -/
def Leads (text : List Char) (r s : Reading) : Prop :=
  ∀ rest, Text.EndsRun isNameChar rest → r.run? (text ++ rest) = s.run? rest

namespace Leads

variable {text more : List Char} {token : Token} {r s t : Reading}

theorem of_token (token : Token) (hstep : r.step? token = some s)
    (htokens : ∀ rest, Text.EndsRun isNameChar rest →
      tokens? (text ++ rest) = (tokens? rest).map (token :: ·)) :
    Leads text r s := fun rest hrest => by
  unfold Reading.run?
  rw [htokens rest hrest]
  cases tokens? rest with
  | none => rfl
  | some tokens => simp [hstep]

theorem mark (h : Marks text token) (hstep : r.step? token = some s) : Leads text r s :=
  .of_token token hstep fun rest _ => h rest

theorem word {name : String} (hname : name.toList ≠ [])
    (hchars : ∀ c ∈ name.toList, isNameChar c = true) (outer : List (List TypeExpr))
    (front : List TypeExpr) :
    Leads name.toList ⟨outer, front, none⟩ ⟨outer, front, some (ofWord name)⟩ := by
  refine .of_token (.word name) rfl fun rest hrest => ?_
  rw [tokens?_word hname hchars hrest, String.ofList_toList]

theorem append (h : Leads text r s) (h' : Leads more s t) (hends : Text.EndsRun isNameChar more) :
    Leads (text ++ more) r t := fun rest hrest => by
  have hmore : Text.EndsRun isNameChar (more ++ rest) := by
    cases more with
    | nil => exact hrest
    | cons c more => exact hends
  rw [List.append_assoc, h _ hmore, h' rest hrest]

/-- Behind a mark a word may begin. -/
theorem behind (h : Marks text token) (hstep : r.step? token = some s) (h' : Leads more s t) :
    Leads (text ++ more) r t := fun rest hrest => by
  have hmore := h' rest hrest
  unfold Reading.run? at hmore ⊢
  rw [List.append_assoc, h, ← hmore]
  cases tokens? (more ++ rest) with
  | none => rfl
  | some tokens => simp [hstep]

/-- An array of what is in parentheses. -/
theorem group {outer : List (List TypeExpr)} {front before : List TypeExpr} {last : TypeExpr}
    (h : Leads text ⟨front :: outer, [], none⟩ ⟨front :: outer, before, some last⟩) :
    Leads ("(".toList ++ (text ++ (")".toList ++ "[]".toList))) ⟨outer, front, none⟩
      ⟨outer, front, some (.array (join before last))⟩ := by
  have hopen : Reading.step? ⟨outer, front, none⟩ .openParen =
      some ⟨front :: outer, [], none⟩ := rfl
  have hclose : Reading.step? ⟨front :: outer, before, some last⟩ .closeParen =
      some ⟨outer, front, some (join before last)⟩ := rfl
  have hbehind : Leads (")".toList ++ "[]".toList) ⟨front :: outer, before, some last⟩
      ⟨outer, front, some (.array (join before last))⟩ :=
    .behind marks_closeParen hclose (.mark marks_brackets rfl)
  exact .behind marks_openParen hopen (h.append hbehind (Text.endsRun_cons (by decide) _))

end Leads

/-! Reading whole types. -/

theorem IsTypeName.ofWord_eq {name : String} (h : IsTypeName name) : ofWord name = .named name := by
  have hword := h.notWord
  unfold ofWord
  split <;> simp_all

theorem alternatives_normalForm_union {types : List TypeExpr} (h : normalAlternatives types ≠ []) :
    (union types).normalForm.alternatives = normalAlternatives types := by
  rw [normalForm]
  split
  next hnil => exact absurd hnil h
  next only hall =>
    have hmem : only ∈ normalAlternatives types := by simp [hall]
    rw [hall]
    exact alternatives_of_not_isUnion (isNormal_of_mem_normalAlternatives types only hmem).1
  next => rfl

theorem normalForm_of_not_isUnion {type : TypeExpr} (h : type.isUnion = false) :
    type.normalForm.isUnion = false := by
  cases type with
  | union types => simp [isUnion] at h
  | array item => rfl
  | _ => rfl

mutual

/-- Reading the text of a type adds the alternatives of its normal form, with the last of them
as the current one. -/
theorem leads_text (type : TypeExpr) (h : ∀ name ∈ type.references, IsTypeName name)
    (outer : List (List TypeExpr)) (front : List TypeExpr) :
    ∃ before last, type.normalForm.alternatives = before ++ [last] ∧
      Leads type.text.toList ⟨outer, front, none⟩ ⟨outer, front ++ before, some last⟩ := by
  cases type with
  | array item =>
      refine ⟨[], .array item.normalForm, rfl, ?_⟩
      rw [text, List.append_nil]
      split
      next =>
        obtain ⟨before, last, hsplit, hitem⟩ := leads_text item h (front :: outer) []
        have hgroup := hitem.group
        rw [List.nil_append, item.isNormal_normalForm.join_eq hsplit] at hgroup
        simpa [String.toList_append] using hgroup
      next hunion =>
        obtain ⟨before, last, hsplit, hitem⟩ := leads_text item h outer front
        have hitself := normalForm_of_not_isUnion (Bool.eq_false_iff.mpr hunion)
        obtain ⟨rfl, rfl⟩ := eq_of_singleton_eq_append
          ((alternatives_of_not_isUnion hitself).symm.trans hsplit)
        rw [String.toList_append]
        rw [List.append_nil] at hitem
        exact hitem.append (.mark marks_brackets rfl) (Text.endsRun_cons (by decide) _)
  | union types =>
      cases types with
      | nil =>
          refine ⟨[], .any, rfl, ?_⟩
          rw [List.append_nil]
          exact .word (by decide) (List.all_eq_true.mp (by decide)) outer front
      | cons first rest =>
          obtain ⟨before, last, hsplit, htexts⟩ :=
            leads_texts (first :: rest) (List.cons_ne_nil first rest) h outer front
          refine ⟨before, last, ?_, htexts⟩
          rw [alternatives_normalForm_union (by simp [hsplit]), hsplit]
  | literal value =>
      refine ⟨[], .literal value, rfl, ?_⟩
      rw [List.append_nil]
      exact .mark (marks_literal value) rfl
  | named name =>
      have hname := h name List.mem_cons_self
      have hword : Leads name.toList ⟨outer, front, none⟩ ⟨outer, front, some (ofWord name)⟩ :=
        .word hname.nonempty hname.chars outer front
      refine ⟨[], .named name, rfl, ?_⟩
      rw [List.append_nil]
      rwa [hname.ofWord_eq] at hword
  | _ =>
      refine ⟨[], _, rfl, ?_⟩
      rw [List.append_nil]
      exact .word (by decide) (List.all_eq_true.mp (by decide)) outer front

theorem leads_texts (types : List TypeExpr) (hne : types ≠ [])
    (h : ∀ name ∈ referencesIn types, IsTypeName name)
    (outer : List (List TypeExpr)) (front : List TypeExpr) :
    ∃ before last, normalAlternatives types = before ++ [last] ∧
      Leads (String.intercalate " | " (texts types)).toList ⟨outer, front, none⟩
        ⟨outer, front ++ before, some last⟩ := by
  cases types with
  | nil => exact absurd rfl hne
  | cons first rest =>
      have hfirst : ∀ name ∈ first.references, IsTypeName name := fun name hname =>
        h name (List.mem_append_left _ hname)
      obtain ⟨before, last, hsplit, htext⟩ := leads_text first hfirst outer front
      cases rest with
      | nil =>
          exact ⟨before, last, by simpa [normalAlternatives] using hsplit,
            by simpa [texts] using htext⟩
      | cons next rest =>
          have hrest : ∀ name ∈ referencesIn (next :: rest), IsTypeName name := fun name hname =>
            h name (List.mem_append_right _ hname)
          obtain ⟨before', last', hsplit', htexts⟩ := leads_texts (next :: rest)
            (List.cons_ne_nil next rest) hrest outer (front ++ before ++ [last])
          refine ⟨before ++ [last] ++ before', last', ?_, ?_⟩
          · rw [normalAlternatives, hsplit, hsplit']
            simp only [List.append_assoc]
          · have hall := htext.append (.behind marks_bar rfl htexts)
              (Text.endsRun_cons (by decide) _)
            simpa [texts, String.intercalate_cons_cons, String.toList_append] using hall

end

/-- The text of a type is read to its end, and what is read is the type in normal form. Types
whose normal forms differ have different texts. -/
theorem read?_text (type : TypeExpr) (h : ∀ name ∈ type.references, IsTypeName name) :
    read? type.text = some type.normalForm ∧ type.normalForm.IsNormal ∧
      ∀ other : TypeExpr, (∀ name ∈ other.references, IsTypeName name) →
        other.normalForm ≠ type.normalForm → other.text ≠ type.text := by
  have hread (type : TypeExpr) (h : ∀ name ∈ type.references, IsTypeName name) :
      read? type.text = some type.normalForm := by
    obtain ⟨before, last, hsplit, hleads⟩ := type.leads_text h [] []
    have hend := hleads [] (by simp [Text.EndsRun])
    rw [List.append_nil, List.nil_append] at hend
    rw [read?, hend]
    simp [Reading.run?, tokens?, Reading.result?, type.isNormal_normalForm.join_eq hsplit]
  refine ⟨hread type h, type.isNormal_normalForm, fun other hother hne htext => hne ?_⟩
  have heq := hread other hother
  rw [htext, hread type h] at heq
  exact (Option.some.inj heq).symm

/-- A literal that looks like more of the type is read as the text it is, and of the unions those
of one type and of none are not seen. -/
theorem read?_text_nested :
    let type := TypeExpr.array (.union [.union [.literal "a' | b)[]", .named "Pet"], .union [],
      .array (.union [.string])])
    (∀ name ∈ type.references, IsTypeName name) ∧
    type.text = "('a\\' | b)[]' | Pet | any | (string)[])[]" ∧
    read? type.text = some (.array (.union [.literal "a' | b)[]", .named "Pet", .any,
      .array .string])) := by
  intro type
  have hnames : ∀ name ∈ type.references, IsTypeName name := by
    intro name hname
    obtain rfl : name = "Pet" := List.mem_singleton.mp hname
    exact ⟨by decide, List.all_eq_true.mp (by decide), by decide⟩
  exact ⟨hnames, by decide +kernel, (read?_text type hnames).1⟩

end TypeExpr

end ApiInterfaces
