import ApiInterfaces.Interface.Text
import ApiInterfaces.Proofs.Interface.Forest
import ApiInterfaces.Proofs.Interface.Lines
import ApiInterfaces.Proofs.Interface.Scan

/-!
The code of types and members, part by part. It is put together from plain characters, names and
texts between quotes, and what holds of the pieces of these holds of all its pieces.
-/

namespace ApiInterfaces

namespace Scan

/-- The characters that begin neither a comment nor a quoted text and break no line. -/
def isCodeChar (c : Char) : Bool := isInert c && !Text.isLineBreak c

/-- A class without slash, quotes and line breaks consists of such characters. -/
theorem isCodeChar_of_class {p : Char → Bool}
    (h : ['/', '\'', '"', '\n', '\r'].all (fun d => !p d) = true) {c : Char} (hc : p c = true) :
    isCodeChar c = true := by
  simpa [isCodeChar, isInert, Text.isLineBreak, and_assoc] using not_mem_of_class hc h

namespace ReadsAll

variable {P : Piece → Prop}

theorem of_chars {text : List Char} (hchars : ∀ c, isCodeChar c = true → P (.plain c))
    (h : text.all isCodeChar = true) : ReadsAll P text := by
  refine of_inert fun c hc => ?_
  have hcode : isCodeChar c = true := List.all_eq_true.mp h c hc
  exact ⟨(Bool.and_eq_true_iff.mp hcode).1, hchars c hcode⟩

theorem intercalate {separator : String} {texts : List String}
    (hseparator : ReadsAll P separator.toList) (h : ∀ text ∈ texts, ReadsAll P text.toList) :
    ReadsAll P (String.intercalate separator texts).toList := by
  rw [String.toList_intercalate]
  induction texts with
  | nil => exact nil
  | cons text rest ih =>
      obtain ⟨htext, hrest⟩ := List.forall_mem_cons.mp h
      cases rest with
      | nil => simpa using htext
      | cons next rest =>
          rw [List.map_cons, List.map_cons, List.intercalate_cons_cons]
          exact (htext.append hseparator).append (ih hrest)

end ReadsAll

end Scan

open Scan

namespace TypeExpr

mutual

/-- The texts of the literals in a type, from left to right. -/
def literals : TypeExpr → List String
  | .array item => item.literals
  | .union alternatives => literalsIn alternatives
  | .literal text => [text]
  | .string | .number | .boolean | .any | .named _ => []

def literalsIn : List TypeExpr → List String
  | [] => []
  | type :: rest => type.literals ++ literalsIn rest

end

theorem literalsIn_map_literal (values : List String) :
    literalsIn (values.map .literal) = values := by
  induction values with
  | nil => rfl
  | cons value rest ih => exact congrArg (value :: ·) ih

theorem literalsIn_eq_flatMap (types : List TypeExpr) :
    literalsIn types = types.flatMap literals := by
  induction types with
  | nil => rfl
  | cons type rest ih => rw [literalsIn, ih, List.flatMap_cons]

end TypeExpr

section

variable {P : Piece → Prop}

namespace TypeExpr

mutual

theorem readsAll_text (type : TypeExpr) (hchars : ∀ c, isCodeChar c = true → P (.plain c))
    (hnames : ∀ name ∈ type.references, ReadsAll P name.toList)
    (hliterals : ∀ value ∈ type.literals, P (.quoted (Quoted.quoted '\'' value.toList))) :
    ReadsAll P type.text.toList := by
  cases type with
  | array item =>
      have hitem := readsAll_text item hchars hnames hliterals
      rw [text]
      split
      next =>
        rw [String.toList_append, String.toList_append]
        exact ((ReadsAll.of_chars hchars (by decide)).append hitem).append
          (.of_chars hchars (by decide))
      next =>
        rw [String.toList_append]
        exact hitem.append (.of_chars hchars (by decide))
  | union alternatives =>
      cases alternatives with
      | nil => exact .of_chars hchars (by decide)
      | cons first rest =>
          rw [text]
          exact .intercalate (.of_chars hchars (by decide))
            (readsAll_texts (first :: rest) hchars hnames hliterals)
  | literal value =>
      rw [text, Quoted.literal, String.toList_ofList]
      exact .quoted (.inl rfl) (hliterals value List.mem_cons_self)
  -- A name is written as it is, with nothing around it to shield it.
  | named name => exact hnames name List.mem_cons_self
  | _ => exact .of_chars hchars (by decide)

theorem readsAll_texts (types : List TypeExpr) (hchars : ∀ c, isCodeChar c = true → P (.plain c))
    (hnames : ∀ name ∈ referencesIn types, ReadsAll P name.toList)
    (hliterals : ∀ value ∈ literalsIn types, P (.quoted (Quoted.quoted '\'' value.toList))) :
    ∀ text ∈ texts types, ReadsAll P text.toList := by
  cases types with
  | nil => simp [texts]
  | cons type rest =>
      obtain ⟨hname, hnames⟩ := List.forall_mem_append.mp hnames
      obtain ⟨hliteral, hliterals⟩ := List.forall_mem_append.mp hliterals
      exact List.forall_mem_cons.mpr
        ⟨readsAll_text type hchars hname hliteral, readsAll_texts rest hchars hnames hliterals⟩

end

end TypeExpr

theorem Quoted.readsAll_key (name : String) (hchars : ∀ c, isCodeChar c = true → P (.plain c))
    (hkey : P (.quoted (Quoted.quoted '"' name.toList))) : ReadsAll P (Quoted.key name).toList := by
  unfold Quoted.key
  split
  next hword =>
    refine .of_chars hchars (List.all_eq_true.mpr fun c hc => ?_)
    cases htext : name.toList with
    | nil => simp [htext] at hc
    | cons first rest =>
        rw [htext] at hc hword
        have hall := (Bool.and_eq_true_iff.mp hword).2
        exact isCodeChar_of_class (by decide) (List.all_eq_true.mp hall c hc)
  next =>
    rw [String.toList_ofList]
    exact .quoted (.inr rfl) hkey

theorem Member.readsAll_text (m : Member) (hchars : ∀ c, isCodeChar c = true → P (.plain c))
    (hnames : ∀ name ∈ m.type.references, ReadsAll P name.toList)
    (hkey : P (.quoted (Quoted.quoted '"' m.name.toList)))
    (hliterals : ∀ value ∈ m.type.literals, P (.quoted (Quoted.quoted '\'' value.toList))) :
    ReadsAll P m.text.toList := by
  have hname := Quoted.readsAll_key m.name hchars hkey
  have htype := m.type.readsAll_text hchars hnames hliterals
  have hoptional : ReadsAll P (if m.optional then "?" else "").toList := by
    split <;> exact .of_chars hchars (by decide)
  simp only [Member.text, String.toList_append]
  exact (((hname.append hoptional).append (.of_chars hchars (by decide))).append htype).append
    (.of_chars hchars (by decide))

end

/-! Every text between quotes is a part of the code. -/

namespace Quoted

theorem subset_quoted (quote : Char) (text : List Char) : text ⊆ quoted quote text := by
  have hescape : text ⊆ escape quote text :=
    List.Subset.trans (Text.subset_replaceChar List.mem_cons_self text)
      (Text.subset_replaceChar (List.mem_cons_of_mem _ List.mem_cons_self) _)
  exact List.subset_cons_of_subset _ (List.subset_append_of_subset_left _ hescape)

theorem subset_key (name : String) : name.toList ⊆ (key name).toList := by
  unfold key
  split
  next => exact List.Subset.refl _
  next =>
    rw [String.toList_ofList]
    exact subset_quoted '"' name.toList

end Quoted

namespace TypeExpr

mutual

theorem subset_text (type : TypeExpr) :
    ∀ value ∈ type.literals, value.toList ⊆ type.text.toList := by
  cases type with
  | array item =>
      intro value hvalue
      have hitem := subset_text item value hvalue
      rw [text]
      split
      next =>
        rw [String.toList_append, String.toList_append]
        exact List.subset_append_of_subset_left _ (List.subset_append_of_subset_right _ hitem)
      next =>
        rw [String.toList_append]
        exact List.subset_append_of_subset_left _ hitem
  | union alternatives =>
      cases alternatives with
      | nil => simp [literals, literalsIn]
      | cons first rest =>
          intro value hvalue
          obtain ⟨part, hpart, hsubset⟩ := exists_subset_texts (first :: rest) value hvalue
          rw [text, String.toList_intercalate]
          exact List.Subset.trans hsubset (Text.subset_intercalate (List.mem_map_of_mem hpart))
  | literal value =>
      intro other hother
      obtain rfl := List.mem_singleton.mp hother
      rw [text, Quoted.literal, String.toList_ofList]
      exact Quoted.subset_quoted '\'' other.toList
  | _ => simp [literals]

theorem exists_subset_texts (types : List TypeExpr) :
    ∀ value ∈ literalsIn types, ∃ part ∈ texts types, value.toList ⊆ part.toList := by
  cases types with
  | nil => simp [literalsIn]
  | cons type rest =>
      intro value hvalue
      rcases List.mem_append.mp hvalue with hvalue | hvalue
      · exact ⟨type.text, List.mem_cons_self, subset_text type value hvalue⟩
      · obtain ⟨part, hpart, hsubset⟩ := exists_subset_texts rest value hvalue
        exact ⟨part, List.mem_cons_of_mem _ hpart, hsubset⟩

end

end TypeExpr

/-- The key of a member and the literals in its type. -/
def Member.quotedTexts (m : Member) : List String := m.name :: m.type.literals

theorem Member.subset_text (m : Member) :
    ∀ text ∈ m.quotedTexts, text.toList ⊆ m.text.toList := by
  intro text htext
  simp only [Member.text, String.toList_append]
  rcases List.mem_cons.mp htext with rfl | hliteral
  · have hkey := Quoted.subset_key m.name
    exact List.subset_append_of_subset_left _ (List.subset_append_of_subset_left _
      (List.subset_append_of_subset_left _ (List.subset_append_of_subset_left _ hkey)))
  · have htype := m.type.subset_text text hliteral
    exact List.subset_append_of_subset_left _ (List.subset_append_of_subset_right _ htype)

end ApiInterfaces
