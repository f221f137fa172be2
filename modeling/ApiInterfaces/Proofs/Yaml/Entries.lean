import ApiInterfaces.Proofs.Document.Loading
import ApiInterfaces.Proofs.Yaml.Key
import Mathlib.Data.List.Induction

/-!
The entries of a mapping as members of a record. They are put one after another under the texts of
their keys, so every entry is kept exactly where no two keys have one text.
-/

namespace ApiInterfaces

namespace Keyed

variable {κ α : Type} [DecidableEq κ]

/-- Every key stands where it was put first. -/
theorem keys_ofList (entries : List (κ × α)) :
    keys (ofList entries) = (keys entries).eraseDups := by
  induction entries using List.reverseRecOn with
  | nil => rfl
  | append_singleton rest entry ih =>
      obtain ⟨key, value⟩ := entry
      have hkeys : keys (rest ++ [(key, value)]) = keys rest ++ [key] := List.map_append
      rw [ofList_concat, keys_put, ih, hkeys, List.eraseDups_append]
      by_cases hmem : key ∈ keys rest
      · rw [if_pos (List.mem_eraseDups.mpr hmem)]
        simp [List.removeAll, hmem]
      · rw [if_neg (mt List.mem_eraseDups.mp hmem)]
        simp [List.removeAll, hmem, List.eraseDups_cons]

/-- Every key has the value that was put last. -/
theorem get?_ofList (key : κ) (entries : List (κ × α)) :
    get? key (ofList entries) = get? key entries.reverse := by
  induction entries using List.reverseRecOn with
  | nil => rfl
  | append_singleton rest entry ih =>
      obtain ⟨other, value⟩ := entry
      rw [ofList_concat, List.reverse_concat, get?]
      split
      next heq =>
        subst heq
        exact get?_put_self ..
      next hne => rw [get?_put_of_ne (Ne.symm hne), ih]

end Keyed

namespace Yaml.Value

/-! ### Members -/

/-- The texts of the keys of a mapping. -/
def keyTexts (entries : List (Value × Value)) : List String := entries.map fun e => e.1.keyText

/-- A member for each entry of a mapping, under the text of its key. -/
def members (entries : List (Value × Value)) : List (String × Json) :=
  entries.map fun e => (e.1.keyText, e.2.toJson)

theorem keys_members (entries : List (Value × Value)) :
    Keyed.keys (members entries) = keyTexts entries := by
  rw [Keyed.keys, members, List.map_map]
  rfl

theorem toJsonEntries_eq (put : List (String × Json)) (entries : List (Value × Value)) :
    toJsonEntries put entries =
      (members entries).foldl (fun acc m => Keyed.put m.1 m.2 acc) put := by
  induction entries generalizing put with
  | nil => rfl
  | cons entry rest ih =>
      obtain ⟨key, value⟩ := entry
      exact ih _

theorem toJson_mapping (entries : List (Value × Value)) :
    (mapping entries).toJson = .obj (Keyed.ofList (members entries)) :=
  congrArg Json.obj (toJsonEntries_eq [] entries)

theorem toJson_mapping_eq_iff (entries : List (Value × Value)) :
    (mapping entries).toJson = .obj (members entries) ↔ (keyTexts entries).Nodup := by
  rw [toJson_mapping, Json.obj.injEq, ← keys_members]
  constructor
  · intro heq
    have hrecord : (Json.obj (Keyed.ofList (members entries))).DistinctKeys := by
      rw [← toJson_mapping]
      exact distinctKeys_toJson _
    rw [← heq]
    exact hrecord.nodup_keys
  · exact Keyed.ofList_of_nodup

/-- What becomes of a mapping in any case. -/
theorem exists_members_toJson_mapping (entries : List (Value × Value)) :
    ∃ kept, (mapping entries).toJson = .obj kept ∧
      Keyed.keys kept = (keyTexts entries).eraseDups ∧
      ∀ key, Keyed.get? key kept = Keyed.get? key (members entries).reverse := by
  refine ⟨_, toJson_mapping entries, ?_, fun key => Keyed.get?_ofList key _⟩
  rw [Keyed.keys_ofList, keys_members]

/-! ### Whole documents -/

mutual

/-- A value as a document tree in which each mapping has a member for every entry. -/
def entrywise : Value → Json
  | .null => .null
  | .bool b => .bool b
  | .integer n => .num (.integer n)
  | .double x => x.toJson
  | .text s => .str s
  | .sequence items => .arr (entrywiseItems items)
  | .mapping entries => .obj (entrywiseMembers entries)
  | .tagged _ v => v.entrywise

def entrywiseItems : List Value → List Json
  | [] => []
  | item :: rest => item.entrywise :: entrywiseItems rest

def entrywiseMembers : List (Value × Value) → List (String × Json)
  | [] => []
  | (key, value) :: rest => (key.keyText, value.entrywise) :: entrywiseMembers rest

end

/-- The values in a value: its items, those behind the keys of a mapping, one under a tag, and what
is in these. -/
inductive Within (whole : Value) : Value → Prop
  | whole : Within whole whole
  | item {items : List Value} (h : Within whole (.sequence items)) {item : Value}
      (hmem : item ∈ items) : Within whole item
  | value {entries : List (Value × Value)} (h : Within whole (.mapping entries))
      {entry : Value × Value} (hmem : entry ∈ entries) : Within whole entry.2
  | tagged {tag : String} {v : Value} (h : Within whole (.tagged tag v)) : Within whole v

theorem Within.trans {a b c : Value} (h : a.Within b) (h' : b.Within c) : a.Within c := by
  induction h' with
  | whole => exact h
  | item _ hmem ih => exact ih.item hmem
  | value _ hmem ih => exact ih.value hmem
  | tagged _ ih => exact ih.tagged

theorem WellFormed.within {a b : Value} (ha : a.WellFormed) (h : a.Within b) : b.WellFormed := by
  induction h with
  | whole => exact ha
  | item _ hmem ih =>
      cases ih with
      | plain hplain => cases hplain
      | sequence hitems => exact hitems _ hmem
  | value _ hmem ih =>
      cases ih with
      | plain hplain => cases hplain
      | mapping _ _ hvalues => exact hvalues _ hmem
  | tagged _ ih =>
      cases ih with
      | plain hplain => cases hplain
      | tagged _ h => exact h

theorem entrywiseItems_eq (items : List Value) : entrywiseItems items = items.map entrywise := by
  induction items with
  | nil => rfl
  | cons item rest ih => rw [entrywiseItems, ih, List.map_cons]

theorem entrywiseMembers_eq (entries : List (Value × Value)) :
    entrywiseMembers entries = entries.map fun e => (e.1.keyText, e.2.entrywise) := by
  induction entries with
  | nil => rfl
  | cons entry rest ih =>
      obtain ⟨key, value⟩ := entry
      rw [entrywiseMembers, ih, List.map_cons]

/-- No mapping in a value has two keys with one text. -/
def KeysApart (v : Value) : Prop :=
  ∀ entries, v.Within (.mapping entries) → (keyTexts entries).Nodup

theorem KeysApart.within {a b : Value} (ha : a.KeysApart) (h : a.Within b) : b.KeysApart :=
  fun _ h' => ha _ (h.trans h')

mutual

theorem toJson_eq_entrywise {v : Value} (h : v.KeysApart) : v.toJson = v.entrywise := by
  cases v with
  | sequence items =>
      have hitems := toJsonItems_eq_entrywise fun item hmem => h.within (.item .whole hmem)
      rw [toJson, entrywise, hitems]
  | mapping entries =>
      have hmembers := members_eq_entrywise fun entry hmem => h.within (.value .whole hmem)
      rw [(toJson_mapping_eq_iff entries).mpr (h entries .whole), entrywise, hmembers]
  | tagged tag v =>
      have hv : v.KeysApart := h.within (.tagged .whole)
      rw [toJson, entrywise, toJson_eq_entrywise hv]
  | _ => rfl

theorem toJsonItems_eq_entrywise {items : List Value} (h : ∀ item ∈ items, item.KeysApart) :
    toJsonItems items = entrywiseItems items := by
  cases items with
  | nil => rfl
  | cons item rest =>
      obtain ⟨hitem, hrest⟩ := List.forall_mem_cons.mp h
      rw [toJsonItems, entrywiseItems, toJson_eq_entrywise hitem, toJsonItems_eq_entrywise hrest]

theorem members_eq_entrywise {entries : List (Value × Value)}
    (h : ∀ entry ∈ entries, entry.2.KeysApart) : members entries = entrywiseMembers entries := by
  cases entries with
  | nil => rfl
  | cons entry rest =>
      obtain ⟨key, value⟩ := entry
      obtain ⟨hvalue, hrest⟩ := List.forall_mem_cons.mp h
      rw [members, List.map_cons, entrywiseMembers, ← members_eq_entrywise hrest,
        toJson_eq_entrywise hvalue]
      rfl

end

theorem distinctKeys_entrywise_of_within {a b : Value} (ha : a.entrywise.DistinctKeys)
    (h : a.Within b) : b.entrywise.DistinctKeys := by
  induction h with
  | whole => exact ha
  | item _ hmem ih =>
      rw [entrywise, entrywiseItems_eq] at ih
      cases ih with
      | scalar hscalar => simp [Json.isContainer] at hscalar
      | sequence hitems => exact hitems _ (List.mem_map_of_mem hmem)
  | value _ hmem ih =>
      rw [entrywise, entrywiseMembers_eq] at ih
      cases ih with
      | scalar hscalar => simp [Json.isContainer] at hscalar
      | record _ hmembers => exact hmembers _ (List.mem_map_of_mem hmem)
  | tagged _ ih => exact ih

/-- A document tree has no key twice, so it has a member for each entry only if the texts differ. -/
theorem toJson_eq_entrywise_iff {v : Value} : v.toJson = v.entrywise ↔ v.KeysApart := by
  refine ⟨fun heq entries h => ?_, toJson_eq_entrywise⟩
  have hv : v.entrywise.DistinctKeys := by
    rw [← heq]
    exact distinctKeys_toJson v
  have hrecord := distinctKeys_entrywise_of_within hv h
  rw [entrywise, entrywiseMembers_eq] at hrecord
  have hnodup := hrecord.nodup_keys
  rwa [Keyed.keys, List.map_map] at hnodup

/-- A document is loaded with every entry of its mappings exactly where no mapping has two keys with
one text. In any mapping the key that is put first gives the place and the one that is put last the
value, and of two scalar keys that have one text one spells the other, or they differ in their
tags. -/
theorem ofYaml?_entrywise_iff {text : String} {document : Value}
    (h : ofText? text = some document) :
    (Json.ofYaml? text = some document.entrywise ↔
      ∀ entries, document.Within (.mapping entries) → (keyTexts entries).Nodup) ∧
    ∀ entries, document.Within (.mapping entries) →
      ((mapping entries).toJson = .obj (members entries) ↔ (keyTexts entries).Nodup) ∧
      (∃ kept, (mapping entries).toJson = .obj kept ∧
        Keyed.keys kept = (keyTexts entries).eraseDups ∧
        ∀ key, Keyed.get? key kept = Keyed.get? key (members entries).reverse) ∧
      entries.Pairwise fun a b => a.1.isScalar = true ∨ b.1.isScalar = true →
        (a.1.keyText = b.1.keyText ↔
          a.1.bare = b.1.bare ∧ a.1.tags ≠ b.1.tags ∨ a.1.Spells b.1 ∨ b.1.Spells a.1) := by
  constructor
  · rw [Json.ofYaml?, h, Option.map_some, Option.some.injEq]
    exact toJson_eq_entrywise_iff
  · intro entries hwithin
    exact ⟨toJson_mapping_eq_iff entries, exists_members_toJson_mapping entries,
      pairwise_keyText_eq_iff ((wellFormed_of_ofText? h).within hwithin)⟩

/-- Keys of three kinds with nearly the same spelling. -/
def lookalikes : List (Value × Value) :=
  [(integer 1, text "a"), (double (.finite ⟨false, twoTo 52, -52⟩), text "b"),
    (text "01", text "c")]

theorem ofText?_lookalikes :
    ofText? "1: a\n1.0: b\n'01': c\n" = some (mapping lookalikes) := by
  have htokens : tokens? "1: a\n1.0: b\n'01': c\n" = some [.blockMapping,
      .key, .scalar ['1'] true, .value, .scalar ['a'] true,
      .key, .scalar ['1', '.', '0'] true, .value, .scalar ['b'] true,
      .key, .scalar ['0', '1'] false, .value, .scalar ['c'] true, .blockEnd] := by
    decide +kernel
  have hnode : document? [.blockMapping,
      .key, .scalar ['1'] true, .value, .scalar ['a'] true,
      .key, .scalar ['1', '.', '0'] true, .value, .scalar ['b'] true,
      .key, .scalar ['0', '1'] false, .value, .scalar ['c'] true, .blockEnd] =
      some (.mapping none [(.scalar none "1" true, .scalar none "a" true),
        (.scalar none "1.0" true, .scalar none "b" true),
        (.scalar none "01" false, .scalar none "c" true)], {}) := by
    cbv
  have hvalue (depth : Nat) : (Node.mapping none [(.scalar none "1" true, .scalar none "a" true),
      (.scalar none "1.0" true, .scalar none "b" true),
      (.scalar none "01" false, .scalar none "c" true)]).value? {} 800 (depth + 1) 0 =
      some (mapping lookalikes, 0) := by
    cases depth <;> rfl
  exact ofText?_eq_some_iff.mpr ⟨_, _, _, _, htokens, hnode, hvalue 127⟩

theorem ofYaml?_entrywise_lookalikes :
    ofText? "1: a\n1.0: b\n'01': c\n" = some (mapping lookalikes) ∧
      (mapping lookalikes).toJson = .obj (members lookalikes) :=
  ⟨ofText?_lookalikes,
    ((ofYaml?_entrywise_iff ofText?_lookalikes).2 _ .whole).1.mpr (by decide +kernel)⟩

/-! A number and the text of its digits do have one text. -/

theorem ofText?_colliding : ofText? "200: a\n'200': b\n" =
    some (mapping [(integer 200, text "a"), (text "200", text "b")]) := by
  have htokens : tokens? "200: a\n'200': b\n" = some [.blockMapping,
      .key, .scalar ['2', '0', '0'] true, .value, .scalar ['a'] true,
      .key, .scalar ['2', '0', '0'] false, .value, .scalar ['b'] true, .blockEnd] := by
    decide +kernel
  have hnode : document? [.blockMapping,
      .key, .scalar ['2', '0', '0'] true, .value, .scalar ['a'] true,
      .key, .scalar ['2', '0', '0'] false, .value, .scalar ['b'] true, .blockEnd] =
      some (.mapping none [(.scalar none "200" true, .scalar none "a" true),
        (.scalar none "200" false, .scalar none "b" true)], {}) := by
    cbv
  have hvalue (depth : Nat) : (Node.mapping none [(.scalar none "200" true, .scalar none "a" true),
      (.scalar none "200" false, .scalar none "b" true)]).value? {} 600 (depth + 1) 0 =
      some (mapping [(integer 200, text "a"), (text "200", text "b")], 0) := by
    cases depth <;> rfl
  exact ofText?_eq_some_iff.mpr ⟨_, _, _, _, htokens, hnode, hvalue 127⟩

/-- The later of the two entries replaces the earlier one. -/
theorem not_forall_ofYaml?_entrywise :
    ¬ ∀ text document, ofText? text = some document →
      Json.ofYaml? text = some document.entrywise := by
  intro h
  have hloaded := h _ _ ofText?_colliding
  rw [Json.ofYaml?, ofText?_colliding, Option.map_some, Option.some.injEq,
    toJson_eq_entrywise_iff] at hloaded
  exact absurd (hloaded _ .whole) (by decide)

end Yaml.Value

end ApiInterfaces
