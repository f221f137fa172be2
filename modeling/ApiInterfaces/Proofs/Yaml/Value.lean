import ApiInterfaces.Proofs.Yaml.Scalar

/-!
The values of texts. Their scalars are in their ranges and no mapping repeats a key, at any
depth: each node keeps this if the nodes inside it do.
-/

namespace ApiInterfaces.Yaml

/-- A value as texts have it. -/
inductive Value.WellFormed : Value → Prop
  | plain {v : Value} (h : v.IsPlain) : WellFormed v
  | text (s : String) : WellFormed (.text s)
  | sequence {items : List Value} (hitems : ∀ item ∈ items, WellFormed item) :
      WellFormed (.sequence items)
  | mapping {entries : List (Value × Value)} (hdistinct : distinctKeys entries = true)
      (hkeys : ∀ entry ∈ entries, WellFormed entry.1)
      (hvalues : ∀ entry ∈ entries, WellFormed entry.2) : WellFormed (.mapping entries)
  | tagged (tag : String) {v : Value} (h : WellFormed v) : WellFormed (.tagged tag v)

/-! ### Scalars -/

theorem wellFormed_of_plainOrText? {text : String} {plain : Bool} {v : Value}
    (h : plainOrText? text plain = some v) : v.WellFormed := by
  unfold plainOrText? at h
  split at h
  next =>
    rcases plainValue?_cases h with hplain | rfl
    · exact .plain hplain
    · exact .text text
  next =>
    obtain rfl := Option.some.inj h
    exact .text text

theorem isPlain_of_coreValue? {tag text : String} {v : Value}
    (h : coreValue? tag text = some (some v)) : v.IsPlain := by
  unfold coreValue? at h
  split at h
  next =>
    obtain ⟨b, -, rfl⟩ := Option.map_eq_some_iff.mp (Option.some.inj h)
    exact .bool b
  next =>
    split at h
    next =>
      split at h
      next n hinteger =>
        obtain rfl := Option.some.inj (Option.some.inj h)
        exact isPlain_of_integerText hinteger
      next => simp at h
    next =>
      split at h
      next =>
        obtain ⟨x, hx, rfl⟩ := Option.map_eq_some_iff.mp (Option.some.inj h)
        exact isPlain_of_double? hx
      next =>
        split at h
        next =>
          split at h
          next =>
            obtain rfl := Option.some.inj (Option.some.inj h)
            exact .null
          next => simp at h
        next => simp at h

theorem wellFormed_of_scalarValue? {tag : Option String} {text : String} {plain : Bool} {v : Value}
    (h : scalarValue? tag text plain = some v) : v.WellFormed := by
  unfold scalarValue? at h
  split at h
  next => exact wellFormed_of_plainOrText? h
  next tag =>
    split at h
    next => simp at h
    next name _ =>
      obtain ⟨value, hvalue, rfl⟩ := Option.map_eq_some_iff.mp h
      exact .tagged _ (wellFormed_of_plainOrText? hvalue)
    next =>
      cases hcore : coreValue? tag text with
      | none =>
          rw [hcore, Option.getD_none] at h
          obtain rfl := Option.some.inj h
          exact .text text
      | some value =>
          rw [hcore, Option.getD_some] at h
          exact .plain (isPlain_of_coreValue? (hcore.trans (congrArg some h)))

/-! ### Collections -/

theorem Value.WellFormed.tagged? {tag : Option String} {v w : Value} (hv : v.WellFormed)
    (h : Yaml.tagged? tag v = some w) : w.WellFormed := by
  unfold Yaml.tagged? at h
  split at h
  next => simp at h
  next =>
    obtain rfl := Option.some.inj h
    exact .tagged _ hv
  next =>
    obtain rfl := Option.some.inj h
    exact hv

/-- What holds of every result of a step holds of all results of the step for a list. -/
theorem forall_mem_of_mapM {α β : Type} {step : α → Following β} {P : β → Prop}
    (hstep : ∀ a followed b after, step a followed = some (b, after) → P b) {as : List α}
    {followed after : Nat} {bs : List β} (h : as.mapM step followed = some (bs, after)) :
    ∀ b ∈ bs, P b := by
  induction as generalizing followed after bs with
  | nil =>
      obtain ⟨rfl, -⟩ := Prod.mk.inj (Option.some.inj h)
      simp
  | cons a rest ih =>
      rw [List.mapM_cons] at h
      obtain ⟨⟨b, between⟩, hb, h⟩ := Option.bind_eq_some_iff.mp h
      obtain ⟨⟨more, last⟩, hmore, h⟩ := Option.bind_eq_some_iff.mp h
      obtain ⟨rfl, -⟩ := Prod.mk.inj (Option.some.inj h)
      exact List.forall_mem_cons.mpr ⟨hstep a _ b _ hb, ih hmore⟩

section

variable {anchors : Anchors} {limit : Nat} {inside : Option (Node → Following Value)} {node : Node}
  {followed : Nat}

/-- An alias has the value of a node that is none. -/
theorem exists_target_of_valueWith {result : Value × Nat}
    (h : valueWith anchors limit inside node followed = some result) :
    ∃ target start, (∀ number, target ≠ .alias number) ∧
      valueWith anchors limit inside target start = some result := by
  cases node with
  | «alias» number =>
      unfold valueWith at h
      dsimp only at h
      split at h
      next => simp at h
      next =>
        obtain ⟨⟨target, start⟩, -, h⟩ := Option.bind_eq_some_iff.mp h
        refine ⟨target, start, ?_, ?_⟩
        · rintro number rfl
          simp at h
        · cases target with
          | «alias» => simp at h
          | _ => exact h
  | _ => exact ⟨_, followed, by simp, h⟩

variable (hinside : ∀ read ∈ inside, ∀ node followed v after,
  read node followed = some (v, after) → v.WellFormed)
include hinside

/-- Whatever reads the nodes inside, a node has a value as texts have it if they do. -/
theorem wellFormed_of_valueWith {v : Value} {after : Nat}
    (h : valueWith anchors limit inside node followed = some (v, after)) : v.WellFormed := by
  obtain ⟨target, start, hnoalias, h⟩ := exists_target_of_valueWith h
  cases target with
  | «alias» number => exact absurd rfl (hnoalias number)
  | scalar tag text plain =>
      obtain ⟨value, hvalue, heq⟩ := Option.map_eq_some_iff.mp h
      obtain ⟨rfl, -⟩ := Prod.mk.inj heq
      exact wellFormed_of_scalarValue? hvalue
  | sequence tag items =>
      obtain ⟨read, hread, h⟩ := Option.bind_eq_some_iff.mp h
      obtain ⟨⟨values, last⟩, hvalues, h⟩ := Option.bind_eq_some_iff.mp h
      obtain ⟨value, hvalue, heq⟩ := Option.map_eq_some_iff.mp h
      obtain ⟨rfl, -⟩ := Prod.mk.inj heq
      have hitems := forall_mem_of_mapM (hinside read hread) hvalues
      exact Value.WellFormed.tagged? (.sequence hitems) hvalue
  | mapping tag entries =>
      obtain ⟨read, hread, h⟩ := Option.bind_eq_some_iff.mp h
      obtain ⟨⟨values, last⟩, hvalues, h⟩ := Option.bind_eq_some_iff.mp h
      have hentries : ∀ entry ∈ values, entry.1.WellFormed ∧ entry.2.WellFormed := by
        refine forall_mem_of_mapM ?_ hvalues
        rintro ⟨key, value⟩ start entry after hentry
        obtain ⟨⟨k, between⟩, hk, hentry⟩ := Option.bind_eq_some_iff.mp hentry
        obtain ⟨⟨w, last⟩, hw, hentry⟩ := Option.bind_eq_some_iff.mp hentry
        obtain ⟨rfl, -⟩ := Prod.mk.inj (Option.some.inj hentry)
        exact ⟨hinside read hread _ _ _ _ hk, hinside read hread _ _ _ _ hw⟩
      dsimp only at h
      split at h
      next hdistinct =>
        obtain ⟨value, hvalue, heq⟩ := Option.map_eq_some_iff.mp h
        obtain ⟨rfl, -⟩ := Prod.mk.inj heq
        have hmapping : (Value.mapping values).WellFormed :=
          .mapping hdistinct (fun entry hentry => (hentries entry hentry).1)
            fun entry hentry => (hentries entry hentry).2
        exact hmapping.tagged? hvalue
      next => simp at h

end

theorem wellFormed_of_value? {anchors : Anchors} {limit : Nat} (depth : Nat) {node : Node}
    {followed after : Nat} {v : Value}
    (h : node.value? anchors limit depth followed = some (v, after)) : v.WellFormed := by
  induction depth generalizing node followed after v with
  | zero => exact wellFormed_of_valueWith (by simp) h
  | succ depth ih =>
      refine wellFormed_of_valueWith ?_ h
      intro read hread
      obtain rfl := Option.some.inj hread
      exact fun _ _ _ _ => ih

/-! ### Texts -/

theorem ofText?_eq_some_iff {text : String} {v : Value} :
    Value.ofText? text = some v ↔ ∃ tokens node anchors after, tokens? text = some tokens ∧
      document? tokens = some (node, anchors) ∧
      node.value? anchors (100 * node.weight) 128 0 = some (v, after) := by
  constructor
  · intro h
    obtain ⟨tokens, htokens, h⟩ := Option.bind_eq_some_iff.mp h
    obtain ⟨⟨node, anchors⟩, hnode, h⟩ := Option.bind_eq_some_iff.mp h
    obtain ⟨⟨value, after⟩, hvalue, h⟩ := Option.bind_eq_some_iff.mp h
    obtain rfl := Option.some.inj h
    exact ⟨tokens, node, anchors, after, htokens, hnode, hvalue⟩
  · rintro ⟨tokens, node, anchors, after, htokens, hnode, hvalue⟩
    exact Option.bind_eq_some_iff.mpr ⟨tokens, htokens, Option.bind_eq_some_iff.mpr
      ⟨(node, anchors), hnode, Option.bind_eq_some_iff.mpr ⟨(v, after), hvalue, rfl⟩⟩⟩

theorem wellFormed_of_ofText? {text : String} {v : Value} (h : Value.ofText? text = some v) :
    v.WellFormed := by
  obtain ⟨_, _, _, _, -, -, hvalue⟩ := ofText?_eq_some_iff.mp h
  exact wellFormed_of_value? 128 hvalue

end ApiInterfaces.Yaml
