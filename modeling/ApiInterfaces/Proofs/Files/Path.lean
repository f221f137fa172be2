import ApiInterfaces.Files.Path
import Mathlib.Data.List.Infix

/-!
The parts of a path, and what joining adds to them. A part that is joined to a path stands
after all the parts of the path, whose start does not change.
-/

namespace ApiInterfaces

namespace Text

theorem split_append (separator : Char) (before after : List Char) :
    split separator (before ++ separator :: after) =
      split separator before ++ split separator after := by
  induction before with
  | nil => simp [split]
  | cons c rest ih =>
      rw [List.cons_append, split, split, ih]
      split
      next => rfl
      next =>
        cases hsplit : split separator rest with
        | nil => exact absurd hsplit (split_ne_nil separator rest)
        | cons piece pieces => rfl

theorem split_of_not_mem {separator : Char} {cs : List Char} (h : separator ∉ cs) :
    split separator cs = [cs] := by
  induction cs with
  | nil => rfl
  | cons c rest ih =>
      have hc : c ≠ separator := fun hc => h (hc ▸ List.mem_cons_self)
      rw [split, if_neg hc, ih (List.not_mem_of_not_mem_cons h)]
      rfl

end Text

namespace Path

/-- Where a path starts: at the root, expressly in the working directory, or unsaid. -/
def start (path : String) : List Char := (splitStart path.toList).1

/-- The parts of a path that count. -/
def parts (path : String) : List (List Char) :=
  (Text.split '/' (splitStart path.toList).2).filter fun part => !isIdle part

/-- One part that counts. -/
structure IsPart (part : List Char) : Prop where
  slash : '/' ∉ part
  counts : isIdle part = false

theorem IsPart.ne_nil {part : List Char} (h : IsPart part) : part ≠ [] := by
  rintro rfl
  exact absurd h.counts (by decide)

/-- What follows a slash does not change how a path starts. -/
theorem splitStart_append {cs : List Char} (h : cs ≠ []) (after : List Char) :
    splitStart (cs ++ '/' :: after) = ((splitStart cs).1, (splitStart cs).2 ++ '/' :: after) := by
  fun_cases splitStart cs with
  | case1 rest => rfl
  | case2 => rfl
  | case3 rest => rfl
  | case4 cs hroot hdot hhere =>
      -- No more of the path starts it when the slash and what follows are seen.
      obtain ⟨c, rest, rfl⟩ := List.exists_cons_of_ne_nil h
      rw [splitStart]
      · rintro others hothers
        obtain ⟨rfl, -⟩ := List.cons.inj hothers
        exact hroot rest rfl
      · intro hothers
        simp at hothers
      · rintro others hothers
        obtain ⟨rfl, hrest⟩ := List.cons.inj hothers
        rcases rest with _ | ⟨d, rest⟩
        · exact hdot rfl
        · obtain ⟨rfl, -⟩ := List.cons.inj hrest
          exact hhere rest rfl

/-! Joining. -/

/-- The characters of a path that `right`, which is not absolute, is joined to. -/
def joined (left right : List Char) : List Char :=
  if left = [] ∨ ['/'] <:+ left then left ++ right else left ++ '/' :: right

theorem joined_append (left right after : List Char) :
    joined left (right ++ after) = joined left right ++ after := by
  unfold joined
  split <;> simp

theorem startsWith_slash_iff {path : String} : path.startsWith "/" = true ↔ ['/'] <+: path.toList :=
  String.startsWith_string_iff

theorem endsWith_slash_iff {path : String} : path.endsWith "/" = true ↔ ['/'] <:+ path.toList := by
  rw [String.endsWith_eq_endsWith_toSlice, String.Slice.endsWith_string_iff, String.copy_toSlice]
  rfl

theorem toList_join (path : String) {right : List Char} (h : ¬ ['/'] <+: right) :
    (join path (String.ofList right)).toList = joined path.toList right := by
  have hrelative : ¬ (String.ofList right).startsWith "/" = true := by
    rwa [startsWith_slash_iff, String.toList_ofList]
  have hends : (path = "" ∨ path.endsWith "/" = true) ↔
      (path.toList = [] ∨ ['/'] <:+ path.toList) := by
    rw [endsWith_slash_iff, String.toList_eq_nil_iff]
  rw [join, if_neg hrelative, joined]
  by_cases hbare : path.toList = [] ∨ ['/'] <:+ path.toList
  · rw [if_pos (hends.mpr hbare), if_pos hbare, String.toList_append, String.toList_ofList]
  · rw [if_neg (mt hends.mp hbare), if_neg hbare, String.toList_append, String.toList_append,
      @String.toList_ofList right, List.append_assoc]
    rfl

namespace IsPart

variable {part : List Char} (h : IsPart part)
include h

theorem not_prefix (after : List Char) : ¬ ['/'] <+: part ++ after := by
  obtain ⟨c, rest, rfl⟩ := List.exists_cons_of_ne_nil h.ne_nil
  rintro ⟨others, hothers⟩
  obtain ⟨rfl, -⟩ := List.cons.inj hothers
  exact h.slash List.mem_cons_self

theorem relative : ¬ ['/'] <+: part := by simpa using h.not_prefix []

theorem not_suffix (before : List Char) : ¬ ['/'] <:+ before ++ part := by
  rw [List.singleton_suffix_iff_getLast?_eq_some, List.getLast?_append_of_ne_nil _ h.ne_nil]
  intro hlast
  exact h.slash (List.mem_of_getLast? hlast)

/-- A part does not close the path that it ends, so that a slash is put behind it. -/
theorem joined_joined (left right : List Char) :
    joined (joined left part) right = joined left part ++ '/' :: right := by
  obtain ⟨before, hbefore⟩ : ∃ before, joined left part = before ++ part := by
    unfold joined
    split
    next => exact ⟨left, rfl⟩
    next => exact ⟨left ++ ['/'], by simp⟩
  have hsome : before ++ part ≠ [] := by simp [h.ne_nil]
  rw [hbefore, joined, if_neg]
  rintro (hnil | hsuffix)
  · exact hsome hnil
  · exact h.not_suffix before hsuffix

theorem splitStart_eq : splitStart part = ([], part) := by
  unfold splitStart
  split
  next => exact absurd List.mem_cons_self h.slash
  next => exact absurd h.counts (by decide)
  next => exact absurd (List.mem_cons_of_mem _ List.mem_cons_self) h.slash
  next => rfl

theorem split_eq : (Text.split '/' part).filter (fun part => !isIdle part) = [part] := by
  rw [Text.split_of_not_mem h.slash, List.filter_singleton, h.counts]
  rfl

theorem start_ofList : start (String.ofList part) = [] := by
  rw [start, String.toList_ofList, h.splitStart_eq]

theorem parts_ofList : parts (String.ofList part) = [part] := by
  rw [parts, String.toList_ofList, h.splitStart_eq, h.split_eq]

theorem splitStart_joined (left : List Char) :
    (splitStart (joined left part)).1 = (splitStart left).1 ∧
      (Text.split '/' (splitStart (joined left part)).2).filter (fun part => !isIdle part) =
        (Text.split '/' (splitStart left).2).filter (fun part => !isIdle part) ++ [part] := by
  unfold joined
  split
  next hends =>
    rcases hends with rfl | ⟨before, rfl⟩
    · rw [List.nil_append, h.splitStart_eq, h.split_eq]
      exact ⟨rfl, rfl⟩
    · rw [List.append_assoc, List.singleton_append]
      by_cases hroot : before = []
      · subst hroot
        exact ⟨rfl, h.split_eq⟩
      · rw [splitStart_append hroot, splitStart_append hroot]
        refine ⟨rfl, ?_⟩
        rw [Text.split_append, Text.split_append, List.filter_append, List.filter_append,
          h.split_eq]
        simp [Text.split, isIdle]
  next hends =>
    have hsome : left ≠ [] := fun hnil => hends (.inl hnil)
    rw [splitStart_append hsome]
    refine ⟨rfl, ?_⟩
    rw [Text.split_append, List.filter_append, h.split_eq]

/-- Joining a part keeps the start of a path. -/
theorem start_join (path : String) : start (join path (String.ofList part)) = start path := by
  rw [start, toList_join path h.relative]
  exact (h.splitStart_joined path.toList).1

/-- Joining a part puts it behind the parts of a path. -/
theorem parts_join (path : String) :
    parts (join path (String.ofList part)) = parts path ++ [part] := by
  rw [parts, toList_join path h.relative]
  exact (h.splitStart_joined path.toList).2

/-- It is the same whether parts are joined to a path one by one or to each other first. -/
theorem join_join {first : List Char} (hfirst : IsPart first) (path : String) :
    join path (join (String.ofList first) (String.ofList part)) =
      join (join path (String.ofList first)) (String.ofList part) := by
  have hpair : (join (String.ofList first) (String.ofList part)).toList = first ++ '/' :: part := by
    rw [toList_join _ h.relative, String.toList_ofList, joined, if_neg]
    rintro (hnil | hsuffix)
    · exact hfirst.ne_nil hnil
    · exact hfirst.not_suffix [] hsuffix
  apply String.toList_inj.mp
  rw [toList_join _ h.relative, toList_join _ hfirst.relative, hfirst.joined_joined,
    ← @String.ofList_toList (join (String.ofList first) (String.ofList part)), hpair,
    toList_join _ (hfirst.not_prefix _), joined_append]

end IsPart

end Path

end ApiInterfaces
