import ApiInterfaces.Files.Delivery
import ApiInterfaces.Proofs.Files.Tree

/-!
Delivering a file to a tree. The operations of a host may be refused at any point; those
that are not refused change the tree as the operations on trees do. Whatever happens, a
delivery makes no directories but ancestors of the path and writes no file but the one.
-/

namespace ApiInterfaces

/-- What a run is at. -/
inductive Stage where
  | settings
  | input
  | delivery
deriving DecidableEq

/-- What a run was at when the fault stopped it. -/
def Fault.stage : Fault → Stage
  | .settingsUnreadable .. | .settingsMalformed .. => .settings
  | .inputUnreadable .. | .notJson .. | .notYaml .. | .notApiDescription .. => .input
  | .directoryNotMade .. | .fileNotWritten .. => .delivery

namespace FileTree

/-- The action leaves every tree as it is. -/
def Observes {α : Type} (action : StateM FileTree α) : Prop := ∀ t, (action t).2 = t

/-- The action either is refused, and leaves the tree as it is, or carries out the
operation. -/
def Attempts (operation : FileTree → Except FileError FileTree)
    (action : StateM FileTree (Except FileError Unit)) : Prop :=
  ∀ t, (∃ e, action t = (.error e, t)) ∨ ∃ u, operation t = .ok u ∧ action t = (.ok (), u)

/-- A system whose files are a tree. It may refuse what the tree would allow. -/
structure Serves (host : Host (StateM FileTree)) : Prop where
  read : ∀ path, Observes (host.read path)
  write : ∀ path text, Attempts (·.write path text) (host.write path text)
  makeDirectory : ∀ path, Attempts (·.makeDirectory path) (host.makeDirectory path)
  isFile : ∀ path, Observes (host.isFile path)
  isDirectory : ∀ path, Observes (host.isDirectory path)
  now : Observes host.now
  elapsed : Observes host.elapsed

theorem attempts_change (operation : FileTree → Except FileError FileTree) :
    Attempts operation (change operation) := by
  intro t
  unfold change
  cases h : operation t with
  | error e => exact .inl ⟨e, rfl⟩
  | ok u => exact .inr ⟨u, rfl, rfl⟩

theorem serves_host (now : Calendar.Moment) (elapsed : Nat) : Serves (host now elapsed) where
  read _ _ := rfl
  write path text := attempts_change (·.write path text)
  makeDirectory path := attempts_change (·.makeDirectory path)
  isFile _ _ := rfl
  isDirectory _ _ := rfl
  now _ := rfl
  elapsed _ := rfl

/-! Programs on trees. -/

section

variable {α β : Type}

theorem bind_apply (first : StateM FileTree α) (next : α → StateM FileTree β) (t : FileTree) :
    (first >>= next) t = next (first t).1 (first t).2 := rfl

theorem Observes.bind {first : StateM FileTree α} {next : α → StateM FileTree β}
    (hfirst : Observes first) (hnext : ∀ a, Observes (next a)) : Observes (first >>= next) := by
  intro t
  rw [bind_apply, hnext, hfirst]

theorem observes_pure (a : α) : Observes (pure a : StateM FileTree α) := fun _ => rfl

theorem Serves.readText {host : Host (StateM FileTree)} (serves : Serves host) (path : String) :
    Observes (host.readText path) := by
  apply (serves.read path).bind
  intro outcome
  split
  next => exact observes_pure _
  next => split <;> exact observes_pure _

end

/-! Directories on the way to a file. -/

section

variable {host : Host (StateM FileTree)} {path : String} {t s : FileTree}

theorem Serves.confined_makeOutermost (serves : Serves host) {directories : List String}
    (habove : ∀ d ∈ directories, Path.IsAbove d path) {missing : List String}
    (hmissing : ∀ d ∈ missing, Path.IsAbove d path) (h : Confined path ∅ t s) :
    Confined path ∅ t (host.makeOutermost missing directories s).2 ∧
      ∀ left, (host.makeOutermost missing directories s).1 = .ok left →
        ∀ d ∈ left, Path.IsAbove d path := by
  induction directories generalizing missing with
  | nil =>
      refine ⟨h, ?_⟩
      rintro left ⟨⟩
      exact hmissing
  | cons directory outer ih =>
      have hdirectory := habove directory List.mem_cons_self
      have houter : ∀ d ∈ outer, Path.IsAbove d path := fun d hd =>
        habove d (List.mem_cons_of_mem directory hd)
      have hgiven : ∀ left, (.ok missing : Except FileError (List String)) = .ok left →
          ∀ d ∈ left, Path.IsAbove d path := by
        rintro left ⟨⟩
        exact hmissing
      rw [Host.makeOutermost]
      split
      next => exact ⟨h, hgiven⟩
      next =>
        rw [bind_apply]
        obtain ⟨e, hrefused⟩ | ⟨u, hmade, hdone⟩ := serves.makeDirectory directory s
        · rw [hrefused]
          cases e with
          | notFound =>
              -- The directory is still missing, and the next one outward is tried.
              apply ih houter
              intro d hd
              rcases List.mem_cons.mp hd with rfl | hd
              · exact hdirectory
              · exact hmissing d hd
          | alreadyExists =>
              dsimp only
              rw [bind_apply, serves.isDirectory directory s]
              split
              next => exact ⟨h, hgiven⟩
              next => exact ⟨h, by rintro left ⟨⟩⟩
          | _ => exact ⟨h, by rintro left ⟨⟩⟩
        · rw [hdone]
          exact ⟨h.makeDirectory hdirectory hmade, hgiven⟩

theorem Serves.confined_makeEach (serves : Serves host) {directories : List String}
    (habove : ∀ d ∈ directories, Path.IsAbove d path) (h : Confined path ∅ t s) :
    Confined path ∅ t (host.makeEach directories s).2 := by
  induction directories generalizing s with
  | nil => exact h
  | cons directory rest ih =>
      have hdirectory := habove directory List.mem_cons_self
      have hrest : ∀ d ∈ rest, Path.IsAbove d path := fun d hd =>
        habove d (List.mem_cons_of_mem directory hd)
      rw [Host.makeEach, bind_apply]
      obtain ⟨e, hrefused⟩ | ⟨u, hmade, hdone⟩ := serves.makeDirectory directory s
      · rw [hrefused]
        cases e with
        | alreadyExists =>
            dsimp only
            rw [bind_apply, serves.isDirectory directory s]
            split
            next => exact ih hrest h
            next => exact h
        | _ => exact h
      · rw [hdone]
        exact ih hrest (h.makeDirectory hdirectory hmade)

end

end FileTree

/-- A path and what contains it, seen from anything that the path contains. -/
theorem Host.isAbove_of_mem_ancestors {n : Nat} {directory path : String}
    (h : Path.IsAbove directory path) : ∀ d ∈ ancestors n directory, Path.IsAbove d path := by
  induction n generalizing directory with
  | zero =>
      intro d hd
      rwa [List.mem_singleton.mp hd]
  | succ n ih =>
      intro d hd
      rw [ancestors] at hd
      split at hd
      next => rwa [List.mem_singleton.mp hd]
      next outer houter =>
        rcases List.mem_cons.mp hd with rfl | hd
        · exact h
        · exact ih (h.tail houter) d hd

/-- Either there is nothing to make, or all that is above the path is made. -/
theorem DeclarationFile.makeParent_cases {m : Type → Type} [Monad m] (host : Host m)
    (path : String) :
    makeParent host path = pure (.ok ()) ∨ ∃ parent, Path.parent? path = some parent ∧
      makeParent host path = (do
        match ← host.makeDirectories parent with
        | .ok () => pure (.ok ())
        | .error e => pure (.error (.directoryNotMade parent e))) := by
  unfold makeParent
  split
  next => exact .inl rfl
  next => exact .inl rfl
  next parent _ hparent => exact .inr ⟨parent, hparent, rfl⟩

namespace FileTree

section

variable {host : Host (StateM FileTree)} {path : String} {t s : FileTree}

theorem Serves.confined_makeDirectories (serves : Serves host) {directory : String}
    (habove : Path.IsAbove directory path) (h : Confined path ∅ t s) :
    Confined path ∅ t (host.makeDirectories directory s).2 := by
  have hancestors := Host.isAbove_of_mem_ancestors (n := directory.length) habove
  obtain ⟨hconfined, hleft⟩ :=
    serves.confined_makeOutermost hancestors (List.forall_mem_nil _) h
  rw [Host.makeDirectories, bind_apply]
  cases hout : (host.makeOutermost [] (Host.ancestors directory.length directory) s).1 with
  | error e => exact hconfined
  | ok left => exact serves.confined_makeEach (hleft left hout) hconfined

theorem Serves.makeParent_spec (serves : Serves host) (path : String) (t : FileTree) :
    Confined path ∅ t (DeclarationFile.makeParent host path t).2 ∧
      ∀ fault, (DeclarationFile.makeParent host path t).1 = .error fault →
        fault.stage = .delivery := by
  have hnone := Confined.refl path t
  obtain h | ⟨parent, hparent, h⟩ := DeclarationFile.makeParent_cases host path
  · rw [h]
    exact ⟨hnone, by rintro fault ⟨⟩⟩
  · have hmade := serves.confined_makeDirectories (.single hparent) hnone
    rw [h, bind_apply]
    cases (host.makeDirectories parent t).1 with
    | ok => exact ⟨hmade, by rintro fault ⟨⟩⟩
    | error e =>
        refine ⟨hmade, ?_⟩
        rintro fault hfault
        rw [← Except.error.inj hfault]
        rfl

/-- A delivery that fails writes no file; one that succeeds writes exactly the one. Either
makes directories only above the path. -/
theorem Serves.save_spec (serves : Serves host) (path : String) (file : DeclarationFile)
    (t : FileTree) :
    match file.save host path t with
    | (.error fault, u) => fault.stage = .delivery ∧ Confined path ∅ t u
    | (.ok _, u) => ∃ at_,
      u.LeadsTo path at_ (.file file.text.toUTF8) ∧ Confined path {at_} t u := by
  obtain ⟨hmade, hstage⟩ := serves.makeParent_spec path t
  rw [DeclarationFile.save, bind_apply]
  cases hparent : (DeclarationFile.makeParent host path t).1 with
  | error fault => exact ⟨hstage fault hparent, hmade⟩
  | ok =>
      dsimp only
      rw [bind_apply]
      obtain ⟨e, hrefused⟩ | ⟨u, hwritten, hdone⟩ :=
        serves.write path file.text (DeclarationFile.makeParent host path t).2
      · rw [hrefused]
        exact ⟨rfl, hmade⟩
      · rw [hdone]
        exact hmade.write hwritten

end

end FileTree

end ApiInterfaces
