import ApiInterfaces.Proofs.Naming.Freshness
import Mathlib.Data.Nat.Init

/-!
Claims made one after another. What a claim is granted depends on the names claimed before it
alone: the base itself, or the base with the least number that makes it new. The search for that
number needs no bound of its own, and a counter that can tell the names apart never starts over.
-/

namespace ApiInterfaces.Naming.Registry

/-- Claims the bases one after another and gives the names granted, in this order. -/
def claimAll (r : Registry) : List String → List String × Registry
  | [] => ([], r)
  | base :: rest =>
    let (name, r) := r.claim base
    let (names, r) := r.claimAll rest
    (name :: names, r)

/-- From `counter` on, the search for a number stops at `n`. The counter goes up by one as long
as the name with its number is taken, and starts over at `limit`. -/
inductive Search (r : Registry) (base : String) (limit : Nat) : Nat → Nat → Prop
  | free {counter : Nat} : numbered base counter ∉ r.names → Search r base limit counter counter
  | taken {counter n : Nat} : numbered base counter ∈ r.names →
      Search r base limit ((counter + 1) % limit) n → Search r base limit counter n

/-- What a claim of `base` is granted. -/
structure Grants (r : Registry) (base name : String) : Prop where
  /-- The name is new. -/
  fresh : name ∉ r.names
  /-- A base that is new is granted itself. -/
  free : base ∉ r.names → name = base
  /-- One that is taken gets the least number that makes it new. There is one below the number
  of names, so that a search with a counter for as many numbers stops, and stops there. -/
  taken : base ∈ r.names → ∃ n < r.names.length, name = numbered base n ∧
    (∀ m < n, numbered base m ∈ r.names) ∧
    ∀ limit, r.names.length ≤ limit → ∀ m, r.Search base limit 0 m ↔ m = n

section

variable {r : Registry} {base : String} {limit n counter : Nat}

/-- On the way to a free number the counter passes numbers that are taken, and none twice. -/
theorem search_of_le (hlimit : n < limit) (hfree : numbered base n ∉ r.names)
    (hbelow : ∀ m < n, numbered base m ∈ r.names) (hcounter : counter ≤ n) :
    r.Search base limit counter n := by
  induction hcounter using Nat.decreasingInduction with
  | self => exact .free hfree
  | of_succ counter hlt ih =>
      refine .taken (hbelow counter hlt) ?_
      rwa [Nat.mod_eq_of_lt (by omega)]

theorem Search.eq_of_le {m : Nat} (h : r.Search base limit counter m) (hlimit : n < limit)
    (hfree : numbered base n ∉ r.names) (hbelow : ∀ m < n, numbered base m ∈ r.names)
    (hcounter : counter ≤ n) : m = n := by
  induction h with
  | @free counter hname =>
      have hnot : ¬ counter < n := fun hlt => hname (hbelow counter hlt)
      omega
  | @taken counter m hname _ ih =>
      have hne : counter ≠ n := by
        rintro rfl
        exact hfree hname
      apply ih
      rw [Nat.mod_eq_of_lt (by omega)]
      omega

end

theorem grants_claim (r : Registry) (base : String) : r.Grants base (r.claim base).1 where
  fresh := fresh_not_mem r base
  free hbase := by simp [claim, fresh, contains, hbase]
  taken hbase := by
    obtain ⟨hlt, hfree, hbelow⟩ := leastFree_spec hbase
    refine ⟨r.leastFree base, hlt, by simp [claim, fresh, contains, hbase], hbelow, ?_⟩
    intro limit hlimit m
    have hstop : r.leastFree base < limit := by omega
    constructor
    · intro hsearch
      exact hsearch.eq_of_le hstop hfree hbelow (Nat.zero_le _)
    · rintro rfl
      exact search_of_le hstop hfree hbelow (Nat.zero_le _)

/-- A name that is granted is the base, or the base with a number. -/
theorem Grants.eq_or_numbered {r : Registry} {base name : String} (h : r.Grants base name) :
    name = base ∨ ∃ n, name = numbered base n := by
  by_cases hbase : base ∈ r.names
  · obtain ⟨n, -, hname, -⟩ := h.taken hbase
    exact .inr ⟨n, hname⟩
  · exact .inl (h.free hbase)

@[simp] theorem claimAll_nil (r : Registry) : r.claimAll [] = ([], r) := rfl

@[simp] theorem claimAll_cons (r : Registry) (base : String) (rest : List String) :
    r.claimAll (base :: rest) =
      ((r.claim base).1 :: ((r.claim base).2.claimAll rest).1,
        ((r.claim base).2.claimAll rest).2) := rfl

theorem claimAll_append (r : Registry) (first second : List String) :
    r.claimAll (first ++ second) =
      ((r.claimAll first).1 ++ ((r.claimAll first).2.claimAll second).1,
        ((r.claimAll first).2.claimAll second).2) := by
  induction first generalizing r with
  | nil => rfl
  | cons base rest ih => simp [ih]

theorem forall₂_claimAll (r : Registry) (bases : List String) :
    List.Forall₂ (fun base name => name = base ∨ ∃ n, name = numbered base n) bases
      (r.claimAll bases).1 := by
  induction bases generalizing r with
  | nil => exact .nil
  | cons base rest ih => exact .cons (grants_claim r base).eq_or_numbered (ih _)

/-- The names granted are added behind those that are there, in the order of the claims. -/
theorem names_claimAll (r : Registry) (bases : List String) :
    (r.claimAll bases).2.names = r.names ++ (r.claimAll bases).1 := by
  induction bases generalizing r with
  | nil => simp
  | cons base rest ih => simp [ih]

theorem nodup_names_claimAll {r : Registry} (h : r.names.Nodup) (bases : List String) :
    (r.claimAll bases).2.names.Nodup := by
  induction bases generalizing r with
  | nil => exact h
  | cons base rest ih => exact ih (nodup_names_claim h base)

/-- The names that a run of claims grants are pairwise distinct and are the names of the registry,
in order. Each claim is granted a name by those granted before it, and adds just this name behind
them. -/
theorem claimAll_grants (bases : List String) :
    let run := ({} : Registry).claimAll bases
    run.2.names = run.1 ∧ run.1.Nodup ∧
    ∀ earlier base later, bases = earlier ++ base :: later →
      let before := (({} : Registry).claimAll earlier).2
      let claimed := before.claim base
      before.Grants base claimed.1 ∧ claimed.2.names = before.names ++ [claimed.1] ∧
        run.1 = claimed.2.names ++ (claimed.2.claimAll later).1 := by
  intro run
  have hnames : ∀ bases, (({} : Registry).claimAll bases).2.names =
      (({} : Registry).claimAll bases).1 := fun bases => names_claimAll {} bases
  refine ⟨hnames bases, ?_, ?_⟩
  · rw [← hnames bases]
    exact nodup_names_claimAll List.nodup_nil bases
  · rintro earlier base later rfl
    refine ⟨grants_claim _ base, names_claim _ base, ?_⟩
    simp only [run, claimAll_append, claimAll_cons, names_claim, ← hnames earlier,
      List.append_assoc, List.singleton_append]

/-- Names made new by a number may be bases themselves, and such bases may be taken. -/
example : (({} : Registry).claimAll ["Pet", "Pet", "Pet0", "Pet", "Pet00"]).1 =
    ["Pet", "Pet0", "Pet00", "Pet1", "Pet000"] := by
  decide +kernel

end ApiInterfaces.Naming.Registry
