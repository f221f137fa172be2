import ApiInterfaces.Files.Tree
import Mathlib.Data.Set.Basic
import Mathlib.Logic.Relation

/-!
What one operation does to a tree. A tree in which something is added where nothing
was, or a file is written anew, is searched as before: every path that led to a
directory still does, and the path of the operation now leads to what was put there.
-/

namespace ApiInterfaces

/-- `outer` is an ancestor of `path`: one goes up from the path, once or more often. -/
def Path.IsAbove (outer path : String) : Prop :=
  Relation.TransGen (fun inner outer => Path.parent? inner = some outer) path outer

namespace FileTree

/-- Where the search for a path ends. -/
def Target.location : Target → Location
  | .node at_ _ => at_
  | .free at_ => at_

/-- What is there. -/
def Target.node? : Target → Option FileNode
  | .node _ found => some found
  | .free _ => none

/-- The path leads to the node, which is at the location. -/
def LeadsTo (t : FileTree) (path : String) (at_ : Location) (node : FileNode) : Prop :=
  t.resolve path = .ok (.node at_ node)

/-- What becomes of a tree when a file is delivered to `path`: all files elsewhere than at
the given locations are as they were, none of them new, and the only new directories are
ancestors of the path. -/
structure Confined (path : String) (files : Set Location) (t u : FileTree) : Prop where
  workingDirectory : u.workingDirectory = t.workingDirectory
  files : ∀ at_ ∉ files, ∀ content,
    u.node? at_ = some (.file content) ↔ t.node? at_ = some (.file content)
  kept : ∀ at_, t.node? at_ = some .directory → u.node? at_ = some .directory
  made : ∀ at_, u.node? at_ = some .directory → t.node? at_ = some .directory ∨
    ∃ outer, Path.IsAbove outer path ∧ u.LeadsTo outer at_ .directory

/-! Nodes after a change. -/

theorem node?_put_self {at_ : Location} (h : at_ ≠ []) (t : FileTree) (node : FileNode) :
    (t.put at_ node).node? at_ = some node := by
  rw [node?, if_neg h, put, Keyed.get?_put_self]

theorem node?_put_of_ne {at_ other : Location} (h : other ≠ at_) (t : FileTree)
    (node : FileNode) : (t.put at_ node).node? other = t.node? other := by
  rw [node?, node?, put, Keyed.get?_put_of_ne h]

/-- Only the root is at no location of its own, and it is a directory. -/
theorem ne_nil_of_node? {t : FileTree} {at_ : Location} (h : t.node? at_ ≠ some .directory) :
    at_ ≠ [] := by
  rintro rfl
  exact h rfl

theorem workingDirectory_put (t : FileTree) (at_ : Location) (node : FileNode) :
    (t.put at_ node).workingDirectory = t.workingDirectory := rfl

/-! Searching a tree. -/

section

variable {t u : FileTree} {parts : List String} {at_ : Location} {target : Target}

/-- Nothing can be followed from where nothing is. -/
theorem node?_of_follow (h : t.follow at_ parts = .ok target) : t.node? at_ ≠ none := by
  intro hnone
  cases parts <;> simp [follow, hnone] at h

/-- A search succeeds in a directory: it stays, goes up, goes down to a node, or ends at
a name that is free. -/
theorem follow_cons_eq_ok_iff {part : String} :
    t.follow at_ (part :: parts) = .ok target ↔ t.node? at_ = some .directory ∧
      (part = "." ∧ t.follow at_ parts = .ok target ∨
        part ≠ "." ∧ part = ".." ∧ t.follow at_.dropLast parts = .ok target ∨
        part ≠ "." ∧ part ≠ ".." ∧ part.utf8ByteSize ≤ maxNameBytes ∧
          (t.follow (at_ ++ [part]) parts = .ok target ∨
            t.node? (at_ ++ [part]) = none ∧ parts = [] ∧ target = .free (at_ ++ [part]))) := by
  rw [follow.eq_def]
  dsimp only
  cases hnode : t.node? at_ with
  | none => simp
  | some node =>
      cases node with
      | file content => simp
      | directory =>
          by_cases hdot : part = "."
          · simp [hdot]
          · by_cases hdots : part = ".."
            · simp [hdots]
            · by_cases hlong : maxNameBytes < part.utf8ByteSize
              · have hnot : ¬ part.utf8ByteSize ≤ maxNameBytes := by omega
                simp [hdot, hdots, hlong, hnot]
              · have hshort : part.utf8ByteSize ≤ maxNameBytes := by omega
                cases hnext : t.node? (at_ ++ [part]) with
                | some next => simp [hdot, hdots, hlong, hshort]
                | none =>
                    have hstop : t.follow (at_ ++ [part]) parts ≠ .ok target := fun h =>
                      node?_of_follow h hnext
                    cases parts with
                    | nil => simp [hdot, hdots, hlong, hshort, hstop, eq_comm]
                    | cons => simp [hdot, hdots, hlong, hshort, hstop]

/-- The search ends where it says that it does. -/
theorem node?_location (h : t.follow at_ parts = .ok target) :
    t.node? target.location = target.node? := by
  induction parts generalizing at_ with
  | nil =>
      rw [follow] at h
      cases hnode : t.node? at_ with
      | none => simp [hnode] at h
      | some node =>
          rw [hnode] at h
          obtain rfl := Except.ok.inj h
          exact hnode
  | cons part rest ih =>
      obtain ⟨-, ⟨-, h⟩ | ⟨-, -, h⟩ | ⟨-, -, -, h | ⟨hnone, -, rfl⟩⟩⟩ := follow_cons_eq_ok_iff.mp h
      · exact ih h
      · exact ih h
      · exact ih h
      · exact hnone

/-- Where directories are kept, a search ends at the same location, with whatever is
there now. -/
theorem follow_of_kept (hkept : ∀ m, t.node? m = some .directory → u.node? m = some .directory)
    (h : t.follow at_ parts = .ok target) {node : FileNode}
    (hnode : u.node? target.location = some node) :
    u.follow at_ parts = .ok (.node target.location node) := by
  induction parts generalizing at_ with
  | nil =>
      rw [follow] at h
      cases hold : t.node? at_ with
      | none => simp [hold] at h
      | some old =>
          rw [hold] at h
          obtain rfl := Except.ok.inj h
          have hnew : u.node? at_ = some node := hnode
          rw [follow, hnew]
          rfl
  | cons part rest ih =>
      obtain ⟨hdirectory, hstep⟩ := follow_cons_eq_ok_iff.mp h
      refine follow_cons_eq_ok_iff.mpr ⟨hkept at_ hdirectory, ?_⟩
      obtain ⟨hdot, h⟩ | ⟨hdot, hdots, h⟩ | ⟨hdot, hdots, hshort, h⟩ := hstep
      · exact .inl ⟨hdot, ih h⟩
      · exact .inr (.inl ⟨hdot, hdots, ih h⟩)
      · refine .inr (.inr ⟨hdot, hdots, hshort, .inl ?_⟩)
        obtain h | ⟨-, rfl, rfl⟩ := h
        · exact ih h
        · -- The name was free, and the node is what stands under it now.
          have hnew : u.node? (at_ ++ [part]) = some node := hnode
          rw [follow, hnew]
          rfl

end

section

variable {t u : FileTree} {path : String} {target : Target}

/-- A path leads somewhere if it is fit to be searched and the search ends there. -/
theorem resolve_eq_ok_iff :
    t.resolve path = .ok target ↔ '\x00' ∉ path.toList ∧ path ≠ "" ∧
      path.utf8ByteSize ≤ maxPathBytes ∧
      t.follow (if path.startsWith "/" then [] else t.workingDirectory) (components path) =
        .ok target := by
  unfold resolve
  by_cases hnul : '\x00' ∈ path.toList
  · simp [hnul]
  · by_cases hempty : path = ""
    · simp [hempty]
    · by_cases hlong : maxPathBytes < path.utf8ByteSize
      · have hnot : ¬ path.utf8ByteSize ≤ maxPathBytes := by omega
        simp [hnul, hempty, hlong, hnot]
      · have hshort : path.utf8ByteSize ≤ maxPathBytes := by omega
        simp [hnul, hempty, hlong, hshort]

theorem node?_of_resolve (h : t.resolve path = .ok target) :
    t.node? target.location = target.node? :=
  node?_location (resolve_eq_ok_iff.mp h).2.2.2

theorem leadsTo_of_kept (hworking : u.workingDirectory = t.workingDirectory)
    (hkept : ∀ m, t.node? m = some .directory → u.node? m = some .directory)
    (h : t.resolve path = .ok target) {node : FileNode}
    (hnode : u.node? target.location = some node) : u.LeadsTo path target.location node := by
  obtain ⟨hnul, hempty, hshort, hfollow⟩ := resolve_eq_ok_iff.mp h
  refine resolve_eq_ok_iff.mpr ⟨hnul, hempty, hshort, ?_⟩
  rw [hworking]
  exact follow_of_kept hkept hfollow hnode

/-- Directories are still found where they were. -/
theorem LeadsTo.directory {at_ : Location} (h : t.LeadsTo path at_ .directory)
    (hworking : u.workingDirectory = t.workingDirectory)
    (hkept : ∀ m, t.node? m = some .directory → u.node? m = some .directory) :
    u.LeadsTo path at_ .directory :=
  leadsTo_of_kept hworking hkept h (hkept at_ (node?_of_resolve h))

end

/-! Operations. -/

section

variable {t s u : FileTree} {path : String}

theorem Confined.refl (path : String) (t : FileTree) : Confined path ∅ t t where
  workingDirectory := rfl
  files _ _ _ := Iff.rfl
  kept _ h := h
  made _ h := .inl h

theorem exists_free_of_makeDirectory (h : t.makeDirectory path = .ok u) :
    ∃ at_, t.resolve path = .ok (.free at_) ∧ u = t.put at_ .directory := by
  unfold makeDirectory at h
  cases htarget : t.resolve path with
  | error e => simp [htarget, bind, Except.bind] at h
  | ok target =>
      rw [htarget] at h
      cases target with
      | node at_ node => simp [bind, Except.bind] at h
      | free at_ => exact ⟨at_, rfl, (Except.ok.inj h).symm⟩

/-- A write puts a file where the path leads, unless a directory is there. -/
theorem exists_target_of_write {text : String} (h : t.write path text = .ok u) :
    ∃ target, t.resolve path = .ok target ∧ target.node? ≠ some .directory ∧
      u = t.put target.location (.file text.toUTF8) := by
  unfold write at h
  cases htarget : t.resolve path with
  | error e => simp [htarget, bind, Except.bind] at h
  | ok target =>
      rw [htarget] at h
      refine ⟨target, rfl, ?_⟩
      cases target with
      | node at_ node =>
          cases node with
          | directory => simp [bind, Except.bind] at h
          | file content =>
              dsimp only [bind, Except.bind] at h
              split at h
              next => simp at h
              next => exact ⟨by simp [Target.node?], (Except.ok.inj h).symm⟩
      | free at_ =>
          dsimp only [bind, Except.bind] at h
          split at h
          next => simp at h
          next => exact ⟨by simp [Target.node?], (Except.ok.inj h).symm⟩

/-- What is put where no directory is leaves the directories as they are. -/
theorem kept_put {at_ : Location} (h : t.node? at_ ≠ some .directory) (node : FileNode) :
    ∀ m, t.node? m = some .directory → (t.put at_ node).node? m = some .directory := by
  intro m hm
  have hne : m ≠ at_ := by
    rintro rfl
    exact h hm
  rw [node?_put_of_ne hne, hm]

theorem Confined.makeDirectory {directory : String} (h : Confined path ∅ t s)
    (habove : Path.IsAbove directory path) (hmake : s.makeDirectory directory = .ok u) :
    Confined path ∅ t u := by
  obtain ⟨at_, hresolve, rfl⟩ := exists_free_of_makeDirectory hmake
  have hfree : s.node? at_ = none := node?_of_resolve hresolve
  have hnot : s.node? at_ ≠ some .directory := by simp [hfree]
  have hkept := kept_put hnot .directory
  have hself := node?_put_self (ne_nil_of_node? hnot) s .directory
  refine ⟨h.workingDirectory, ?_, ?_, ?_⟩
  · intro m _ content
    rw [← h.files m (Set.notMem_empty m) content]
    by_cases hm : m = at_
    · rw [hm, hself, hfree]
      simp
    · rw [node?_put_of_ne hm]
  · intro m hm
    exact hkept m (h.kept m hm)
  · intro m hm
    by_cases hsame : m = at_
    · subst hsame
      exact .inr ⟨directory, habove,
        leadsTo_of_kept (workingDirectory_put s m .directory) hkept hresolve hself⟩
    · rw [node?_put_of_ne hsame] at hm
      apply (h.made m hm).imp_right
      rintro ⟨outer, houter, hleads⟩
      exact ⟨outer, houter, hleads.directory (workingDirectory_put s at_ .directory) hkept⟩

theorem Confined.write {text : String} (h : Confined path ∅ t s)
    (hwrite : s.write path text = .ok u) :
    ∃ at_, u.LeadsTo path at_ (.file text.toUTF8) ∧ Confined path {at_} t u := by
  obtain ⟨target, hresolve, hnode, rfl⟩ := exists_target_of_write hwrite
  have hthere : s.node? target.location = target.node? := node?_of_resolve hresolve
  have hnot : s.node? target.location ≠ some .directory := by rwa [hthere]
  have hkept := kept_put hnot (.file text.toUTF8)
  have hself := node?_put_self (ne_nil_of_node? hnot) s (.file text.toUTF8)
  have hworking := workingDirectory_put s target.location (.file text.toUTF8)
  refine ⟨target.location, leadsTo_of_kept hworking hkept hresolve hself, h.workingDirectory,
    ?_, ?_, ?_⟩
  · intro m hm content
    rw [node?_put_of_ne hm, h.files m (Set.notMem_empty m)]
  · intro m hm
    exact hkept m (h.kept m hm)
  · intro m hm
    have hne : m ≠ target.location := by
      rintro rfl
      rw [hself] at hm
      simp at hm
    rw [node?_put_of_ne hne] at hm
    apply (h.made m hm).imp_right
    rintro ⟨outer, houter, hleads⟩
    exact ⟨outer, houter, hleads.directory hworking hkept⟩

end

end FileTree

end ApiInterfaces
