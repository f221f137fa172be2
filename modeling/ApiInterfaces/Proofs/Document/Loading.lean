import ApiInterfaces.Document.Loading
import ApiInterfaces.Proofs.Document.Children

/-!
Loaded documents have distinct keys. A reader puts each member of a record in by its
key, which replaces a member that is there, and inlining puts whole nodes of the
document in the place of others.
-/

namespace ApiInterfaces

namespace Keyed

variable {κ α : Type} [DecidableEq κ]

theorem nodup_keys_put {entries : List (κ × α)} (h : (keys entries).Nodup) (key : κ) (value : α) :
    (keys (put key value entries)).Nodup := by
  rw [keys_put]
  split
  next => exact h
  next hnew =>
    rw [← List.concat_eq_append]
    exact h.concat hnew

theorem mem_of_mem_put {entries : List (κ × α)} {key : κ} {value : α} {m : κ × α}
    (h : m ∈ put key value entries) : m = (key, value) ∨ m ∈ entries := by
  induction entries with
  | nil => exact .inl (List.mem_singleton.mp h)
  | cons entry rest ih =>
      obtain ⟨k, v⟩ := entry
      unfold put at h
      split at h
      next hk =>
        rcases List.mem_cons.mp h with rfl | h
        · exact .inl (by rw [hk])
        · exact .inr (List.mem_cons_of_mem _ h)
      next =>
        rcases List.mem_cons.mp h with rfl | h
        · exact .inr List.mem_cons_self
        · exact (ih h).imp id (List.mem_cons_of_mem _)

end Keyed

namespace Json

theorem distinctKeys_empty : (obj []).DistinctKeys := .record List.nodup_nil (by simp)

theorem DistinctKeys.put {members : List (String × Json)} (h : (obj members).DistinctKeys)
    {value : Json} (hvalue : value.DistinctKeys) (key : String) :
    (obj (Keyed.put key value members)).DistinctKeys := by
  refine .record (Keyed.nodup_keys_put h.nodup_keys key value) ?_
  intro m hm
  rcases Keyed.mem_of_mem_put hm with rfl | hm
  · exact hvalue
  · exact h.child (mem_children_obj.mpr ⟨m.1, rfl, hm⟩)

/-! Texts in the notation of JSON. -/

namespace Token

/-- A token with a value has a scalar. -/
def HoldsScalar (token : Token) : Prop := ∀ value, token = .scalar value → value.isContainer = false

theorem isContainer_number? {negative : Bool} {whole : List Char} {fraction : Option (List Char)}
    {exponent : Option Int} {value : Json}
    (h : number? negative whole fraction exponent = some value) : value.isContainer = false := by
  unfold number? at h
  simp only at h
  split at h
  next =>
    obtain rfl := Option.some.inj h
    rfl
  next =>
    split at h
    next =>
      obtain rfl := Option.some.inj h
      rfl
    next =>
      obtain ⟨start, -, h⟩ := Option.bind_eq_some_iff.mp h
      obtain ⟨x, -, h⟩ := Option.bind_eq_some_iff.mp h
      obtain rfl := Option.some.inj h
      rfl

theorem isContainer_numberOfWord? {word : List Char} {value : Json}
    (h : numberOfWord? word = some value) : value.isContainer = false := by
  -- Every way through ends in a number or in nothing.
  unfold numberOfWord? at h
  simp only [Option.bind_eq_bind, Option.bind_some, Option.bind_none] at h
  repeat' split at h
  all_goals first
    | exact isContainer_number? h
    | (obtain ⟨exponent, -, h⟩ := Option.bind_eq_some_iff.mp h
       exact isContainer_number? h)
    | simp at h

theorem isContainer_ofWord? {word : List Char} {value : Json} (h : ofWord? word = some value) :
    value.isContainer = false := by
  unfold ofWord? at h
  split at h
  next =>
    obtain rfl := Option.some.inj h
    rfl
  next =>
    split at h
    next =>
      obtain rfl := Option.some.inj h
      rfl
    next =>
      split at h
      next =>
        obtain rfl := Option.some.inj h
        rfl
      next => exact isContainer_numberOfWord? h

theorem holdsScalar_ofPunctuation? {c : Char} {token : Token} (h : ofPunctuation? c = some token) :
    token.HoldsScalar := by
  rintro value rfl
  unfold ofPunctuation? at h
  split at h <;> simp at h

theorem holdsScalar_ofText? {cs : List Char} {tokens : List Token}
    (h : Token.ofText? cs = some tokens) : ∀ token ∈ tokens, token.HoldsScalar := by
  fun_induction Token.ofText? cs generalizing tokens with
  | case1 =>
      obtain rfl := Option.some.inj h
      simp
  | case2 c cs hblank ih => exact ih h
  | case3 c cs hblank token htoken ih =>
      obtain ⟨rest, hrest, rfl⟩ := Option.map_eq_some_iff.mp h
      exact List.forall_mem_cons.mpr ⟨holdsScalar_ofPunctuation? htoken, ih hrest⟩
  | case4 cs body after hquoted hlength hblank hpunctuation ih =>
      obtain ⟨text, -, h⟩ := Option.bind_eq_some_iff.mp h
      obtain ⟨rest, hrest, rfl⟩ := Option.map_eq_some_iff.mp h
      have htext : (Token.scalar (.str (String.ofList text))).HoldsScalar := by
        rintro value ⟨⟩
        rfl
      exact List.forall_mem_cons.mpr ⟨htext, ih hrest⟩
  | case5 => simp at h
  | case6 c cs hblank hpunctuation hquote hword hlength ih =>
      obtain ⟨value, hvalue, h⟩ := Option.bind_eq_some_iff.mp h
      obtain ⟨rest, hrest, rfl⟩ := Option.map_eq_some_iff.mp h
      have hscalar : (Token.scalar value).HoldsScalar := by
        rintro other ⟨⟩
        exact isContainer_ofWord? hvalue
      exact List.forall_mem_cons.mpr ⟨hscalar, ih hrest⟩
  | case7 => simp at h

end Token

namespace Reader

/-- What a container holds so far has distinct keys. -/
def Open.DistinctKeys : Open → Prop
  | .array elements => ∀ child ∈ elements, child.DistinctKeys
  | .member members _ => (obj members).DistinctKeys

/-- All that has been read has distinct keys. -/
def State.DistinctKeys : State → Prop
  | .expectValue stack | .firstElement stack | .firstKey stack => ∀ c ∈ stack, c.DistinctKeys
  | .afterElement elements stack =>
    (∀ child ∈ elements, child.DistinctKeys) ∧ ∀ c ∈ stack, c.DistinctKeys
  | .expectKey members stack | .expectColon members _ stack | .afterMember members stack =>
    (obj members).DistinctKeys ∧ ∀ c ∈ stack, c.DistinctKeys
  | .finished document => document.DistinctKeys

theorem State.DistinctKeys.complete {value : Json} (hvalue : value.DistinctKeys)
    {stack : List Open} (hstack : ∀ c ∈ stack, c.DistinctKeys) :
    (State.complete value stack).DistinctKeys := by
  cases stack with
  | nil => exact hvalue
  | cons top stack =>
      obtain ⟨htop, hbelow⟩ := List.forall_mem_cons.mp hstack
      cases top with
      | array elements => exact ⟨List.forall_mem_cons.mpr ⟨hvalue, htop⟩, hbelow⟩
      | member members key => exact ⟨htop.put hvalue key, hbelow⟩

theorem State.DistinctKeys.begin? {depth : Nat} {stack : List Open} {token : Token} {t : State}
    (h : State.begin? depth stack token = some t) (htoken : token.HoldsScalar)
    (hstack : ∀ c ∈ stack, c.DistinctKeys) : t.DistinctKeys := by
  unfold State.begin? at h
  split at h
  next value =>
    obtain rfl := Option.some.inj h
    exact .complete (.scalar (htoken value rfl)) hstack
  next =>
    obtain ⟨-, rfl⟩ : stack.length < depth ∧ State.firstElement stack = t := by simpa using h
    exact hstack
  next =>
    obtain ⟨-, rfl⟩ : stack.length < depth ∧ State.firstKey stack = t := by simpa using h
    exact hstack
  next => simp at h

/-- A token adds nothing under a key that is taken. -/
theorem State.DistinctKeys.step? {depth : Nat} {s t : State} {token : Token}
    (hs : s.DistinctKeys) (h : State.step? depth s token = some t) (htoken : token.HoldsScalar) :
    t.DistinctKeys := by
  cases s with
  | expectValue stack => exact .begin? h htoken hs
  | firstElement stack =>
      cases token with
      | closeArray =>
          obtain rfl := Option.some.inj h
          exact .complete (.sequence (by simp)) hs
      | _ =>
          have hopen : ∀ c ∈ Open.array [] :: stack, c.DistinctKeys :=
            List.forall_mem_cons.mpr ⟨by simp [Open.DistinctKeys], hs⟩
          rw [State.step?] at h
          · exact .begin? h htoken hopen
          · simp
  | afterElement elements stack =>
      obtain ⟨helements, hstack⟩ := hs
      cases token with
      | comma =>
          obtain rfl := Option.some.inj h
          exact List.forall_mem_cons.mpr ⟨helements, hstack⟩
      | closeArray =>
          obtain rfl := Option.some.inj h
          exact .complete (.sequence fun child hchild =>
            helements child (List.mem_reverse.mp hchild)) hstack
      | _ => simp [State.step?] at h
  | firstKey stack =>
      cases token with
      | closeObject =>
          obtain rfl := Option.some.inj h
          exact .complete distinctKeys_empty hs
      | scalar value =>
          cases value with
          | str key =>
              obtain rfl := Option.some.inj h
              exact ⟨distinctKeys_empty, hs⟩
          | _ => simp [State.step?] at h
      | _ => simp [State.step?] at h
  | expectKey members stack =>
      cases token with
      | scalar value =>
          cases value with
          | str key =>
              obtain rfl := Option.some.inj h
              exact hs
          | _ => simp [State.step?] at h
      | _ => simp [State.step?] at h
  | expectColon members key stack =>
      cases token with
      | colon =>
          obtain rfl := Option.some.inj h
          exact List.forall_mem_cons.mpr hs
      | _ => simp [State.step?] at h
  | afterMember members stack =>
      cases token with
      | comma =>
          obtain rfl := Option.some.inj h
          exact hs
      | closeObject =>
          obtain rfl := Option.some.inj h
          exact .complete hs.1 hs.2
      | _ => simp [State.step?] at h
  | finished document => simp [State.step?] at h

theorem State.DistinctKeys.foldlM {depth : Nat} {s t : State} {tokens : List Token}
    (hs : s.DistinctKeys) (h : tokens.foldlM (State.step? depth) s = some t)
    (htokens : ∀ token ∈ tokens, token.HoldsScalar) : t.DistinctKeys := by
  induction tokens generalizing s with
  | nil =>
      obtain rfl := Option.some.inj h
      exact hs
  | cons token rest ih =>
      obtain ⟨htoken, hrest⟩ := List.forall_mem_cons.mp htokens
      rw [List.foldlM_cons] at h
      obtain ⟨next, hnext, h⟩ := Option.bind_eq_some_iff.mp h
      exact ih (hs.step? hnext htoken) h hrest

end Reader

theorem distinctKeys_of_ofText? {depth : Nat} {text : String} {document : Json}
    (h : ofText? depth text = some document) : document.DistinctKeys := by
  obtain ⟨tokens, htokens, h⟩ := Option.bind_eq_some_iff.mp h
  obtain ⟨state, hstate, h⟩ := Option.bind_eq_some_iff.mp h
  have hstart : (Reader.State.expectValue []).DistinctKeys := by
    intro c hc
    simp at hc
  have hend := hstart.foldlM hstate (Token.holdsScalar_ofText? htokens)
  cases state with
  | finished found =>
      obtain rfl := Option.some.inj h
      exact hend
  | _ => simp at h

end Json

/-! Texts in the notation of YAML. -/

namespace Yaml.Value

mutual

theorem distinctKeys_toJson (value : Value) : value.toJson.DistinctKeys := by
  cases value with
  | sequence items => exact .sequence (distinctKeys_toJsonItems items)
  | mapping entries => exact distinctKeys_toJsonEntries Json.distinctKeys_empty entries
  | tagged tag value => exact distinctKeys_toJson value
  | double x => cases x <;> exact .scalar rfl
  | _ => exact .scalar rfl

theorem distinctKeys_toJsonItems (items : List Value) :
    ∀ child ∈ toJsonItems items, child.DistinctKeys := by
  cases items with
  | nil => simp [toJsonItems]
  | cons item rest =>
      exact List.forall_mem_cons.mpr ⟨distinctKeys_toJson item, distinctKeys_toJsonItems rest⟩

theorem distinctKeys_toJsonEntries {members : List (String × Json)}
    (h : (Json.obj members).DistinctKeys) (entries : List (Value × Value)) :
    (Json.obj (toJsonEntries members entries)).DistinctKeys := by
  cases entries with
  | nil => exact h
  | cons entry rest =>
      obtain ⟨key, value⟩ := entry
      exact distinctKeys_toJsonEntries (h.put (distinctKeys_toJson value) key.keyText) rest

end

end Yaml.Value

namespace Json

theorem distinctKeys_of_ofYaml? {text : String} {document : Json}
    (h : ofYaml? text = some document) : document.DistinctKeys := by
  obtain ⟨value, -, rfl⟩ := Option.map_eq_some_iff.mp h
  exact value.distinctKeys_toJson

/-- A document is read in one of the two notations. -/
theorem read_of_parse {path contents : String} {document : Json}
    (h : parse path contents = .ok document) :
    ofText? maxDepth contents = some document ∨ ofYaml? contents = some document := by
  unfold parse at h
  dsimp only at h
  split at h
  next => simp at h
  next hjson =>
    obtain rfl := Except.ok.inj h
    exact .inl hjson
  next hjson =>
    obtain rfl := Except.ok.inj h
    exact .inl hjson
  next =>
    split at h
    next hyaml =>
      obtain rfl := Except.ok.inj h
      exact .inr hyaml
    next => simp at h

/-- Whatever its notation, a document is read with distinct keys. -/
theorem distinctKeys_of_parse {path contents : String} {document : Json}
    (h : parse path contents = .ok document) : document.DistinctKeys :=
  (read_of_parse h).elim distinctKeys_of_ofText? distinctKeys_of_ofYaml?

/-! Inlining. -/

section

variable {document node target : Json}

theorem DistinctKeys.child? (h : node.DistinctKeys) {token : String}
    (htarget : node.child? token = some target) : target.DistinctKeys := by
  cases node with
  | obj members =>
      have hmem := Keyed.mem_of_get?_eq_some htarget
      exact h.child (mem_children_obj.mpr ⟨token, rfl, hmem⟩)
  | arr elements =>
      obtain ⟨index, -, hget⟩ := Option.bind_eq_some_iff.mp htarget
      exact h.child (mem_children_arr.mpr ⟨index, rfl, hget⟩)
  | _ => simp [Json.child?] at htarget

theorem DistinctKeys.target? (h : document.DistinctKeys) {reference : String}
    (htarget : document.target? reference = some target) : target.DistinctKeys := by
  apply of_target? (P := DistinctKeys) _ h htarget
  intro node child token hnode hchild
  exact hnode.child? hchild

theorem DistinctKeys.mapReferences {follow : Json → String → Json × List Event}
    (hfollow : ∀ part reference, part.DistinctKeys → (follow part reference).1.DistinctKeys)
    (h : node.DistinctKeys) : (node.mapReferences follow).1.DistinctKeys := by
  induction h with
  | @scalar node hscalar =>
      cases node with
      | obj members => simp [isContainer] at hscalar
      | arr elements => simp [isContainer] at hscalar
      | _ => exact .scalar rfl
  | @sequence elements _ ih =>
      rw [mapReferences_arr]
      refine .sequence fun child hchild => ?_
      obtain ⟨element, helement, rfl⟩ := List.mem_map.mp hchild
      exact ih element helement
  | @record members hnodup hchildren ih =>
      by_cases hplain : ∀ reference, ¬ (obj members).IsReference reference
      · rw [mapReferences_obj follow hplain]
        refine .record ?_ fun m hm => ?_
        · simpa [Keyed.keys, Function.comp_def] using hnodup
        · obtain ⟨member, hmember, rfl⟩ := List.mem_map.mp hm
          exact ih member hmember
      · push Not at hplain
        obtain ⟨reference, hreference⟩ := hplain
        rw [mapReferences_of_isReference follow hreference]
        exact hfollow _ reference (.record hnodup hchildren)

theorem DistinctKeys.inlineFrom (h : document.DistinctKeys) (left : Nat) (followed : List String)
    (hnode : node.DistinctKeys) : (document.inlineFrom left followed node).1.DistinctKeys := by
  induction left generalizing followed node with
  | zero =>
      rw [Json.inlineFrom]
      exact hnode.mapReferences fun part reference hpart => hpart
  | succ left ih =>
      rw [Json.inlineFrom]
      refine hnode.mapReferences fun part reference hpart => ?_
      split
      next => exact hpart
      next =>
        split
        next => exact hpart
        next target htarget => exact ih _ (h.target? htarget)

/-- Inlining keeps the keys distinct. -/
theorem DistinctKeys.inlineReferences (h : document.DistinctKeys) :
    document.inlineReferences.1.DistinctKeys :=
  h.inlineFrom _ [] h

end

end Json

end ApiInterfaces
