/-!
Lists of entries under distinct keys, in the order in which the keys were first put. Putting a
value under a key that is present replaces the value and keeps the position.
-/

namespace ApiInterfaces.Keyed

variable {κ α : Type} [DecidableEq κ]

def put (key : κ) (value : α) : List (κ × α) → List (κ × α)
  | [] => [(key, value)]
  | (k, v) :: rest => if k = key then (k, value) :: rest else (k, v) :: put key value rest

/-- The value under `key`. -/
def get? (key : κ) : List (κ × α) → Option α
  | [] => none
  | (k, v) :: rest => if k = key then some v else get? key rest

def keys (entries : List (κ × α)) : List κ := entries.map Prod.fst

/-- The entries put one after another. -/
def ofList (entries : List (κ × α)) : List (κ × α) :=
  entries.foldl (fun acc entry => put entry.1 entry.2 acc) []

theorem keys_put (key : κ) (value : α) (entries : List (κ × α)) :
    keys (put key value entries) =
      if key ∈ keys entries then keys entries else keys entries ++ [key] := by
  induction entries with
  | nil => simp [put, keys]
  | cons entry rest ih =>
    obtain ⟨k, v⟩ := entry
    by_cases h : k = key
    · simp [put, keys, h]
    · simp only [put, h, if_false, keys, List.map_cons, List.mem_cons] at ih ⊢
      rw [ih]
      by_cases hm : key ∈ rest.map Prod.fst
      · simp [hm]
      · simp [hm, Ne.symm h]

theorem get?_put_self (key : κ) (value : α) (entries : List (κ × α)) :
    get? key (put key value entries) = some value := by
  induction entries with
  | nil => simp [put, get?]
  | cons entry rest ih =>
    obtain ⟨k, v⟩ := entry
    by_cases h : k = key <;> simp [put, get?, h, ih]

theorem get?_put_of_ne {key other : κ} (h : other ≠ key) (value : α) (entries : List (κ × α)) :
    get? other (put key value entries) = get? other entries := by
  induction entries with
  | nil => simp [put, get?, Ne.symm h]
  | cons entry rest ih =>
    obtain ⟨k, v⟩ := entry
    by_cases hk : k = key
    · subst hk; simp [put, get?, Ne.symm h]
    · simp only [put, hk, if_false, get?, ih]

theorem mem_of_get?_eq_some {key : κ} {value : α} {entries : List (κ × α)}
    (h : get? key entries = some value) : (key, value) ∈ entries := by
  induction entries with
  | nil => simp [get?] at h
  | cons entry rest ih =>
    obtain ⟨k, v⟩ := entry
    by_cases hk : k = key
    · simp_all [get?]
    · simp only [get?, hk, if_false] at h
      exact List.mem_cons_of_mem _ (ih h)

theorem get?_of_mem {key : κ} {value : α} {entries : List (κ × α)} (hnodup : (keys entries).Nodup)
    (h : (key, value) ∈ entries) : get? key entries = some value := by
  induction entries with
  | nil => simp at h
  | cons entry rest ih =>
    obtain ⟨k, v⟩ := entry
    obtain ⟨hfirst, hrest⟩ := List.nodup_cons.1 hnodup
    rcases List.mem_cons.1 h with heq | h
    · obtain ⟨rfl, rfl⟩ := Prod.mk.inj heq
      simp [get?]
    · have hkey : key ∈ keys rest := List.mem_map_of_mem h
      have hk : k ≠ key := fun hk => hfirst (hk ▸ hkey)
      simp only [get?, hk, if_false]
      exact ih hrest h

theorem put_of_not_mem {key : κ} {entries : List (κ × α)} (h : key ∉ keys entries) (value : α) :
    put key value entries = entries ++ [(key, value)] := by
  induction entries with
  | nil => rfl
  | cons entry rest ih =>
    obtain ⟨k, v⟩ := entry
    have hne : key ≠ k := List.ne_of_not_mem_cons h
    simp only [put, hne.symm, if_false, ih (List.not_mem_of_not_mem_cons h), List.cons_append]

theorem ofList_concat (entries : List (κ × α)) (key : κ) (value : α) :
    ofList (entries ++ [(key, value)]) = put key value (ofList entries) := by
  simp [ofList]

/-- Entries under distinct keys are kept as they are. -/
theorem ofList_of_nodup {entries : List (κ × α)} (h : (keys entries).Nodup) :
    ofList entries = entries := by
  rcases List.eq_nil_or_concat entries with rfl | ⟨rest, ⟨key, value⟩, rfl⟩
  · rfl
  · rw [keys, List.concat_eq_append, List.map_append, List.nodup_append] at h
    obtain ⟨hrest, -, hdisjoint⟩ := h
    have hkey : key ∉ keys rest := fun hmem => hdisjoint key hmem key (by simp) rfl
    rw [List.concat_eq_append, ofList_concat, ofList_of_nodup hrest, put_of_not_mem hkey]
termination_by entries.length

theorem get?_map {β : Type} (f : α → β) (key : κ) (entries : List (κ × α)) :
    get? key (entries.map fun entry => (entry.1, f entry.2)) = (get? key entries).map f := by
  induction entries with
  | nil => rfl
  | cons entry rest ih =>
    obtain ⟨k, v⟩ := entry
    by_cases hk : k = key
    · simp [get?, hk]
    · simp only [List.map_cons, get?, hk, if_false, ih]

end ApiInterfaces.Keyed
