import ApiInterfaces.Document.Extraction
import ApiInterfaces.Proofs.Decimal.Digits
import ApiInterfaces.Proofs.Document.Inlining

/-!
Places and paths. A place writes keys and indices alike as texts, and still no two
paths of a document have the same place, since at each node there are only keys or
only indices to choose from.
-/

namespace ApiInterfaces

/-- The place at the end of a path. -/
def Place.ofPath (path : List Edge) : Place := path.filterMap Edge.segment?

namespace Json

theorem indexOfToken?_repr (n : Nat) : indexOfToken? (Nat.repr n).toList = some n := by
  have hvalue : Nat.ofDigitChars 10 (Nat.toDigits 10 n) 0 = n := Nat.ofDigitChars_ten_toDigits
  have hdigits : (Nat.toDigits 10 n).all Char.isDigit = true :=
    List.all_eq_true.mpr fun c hc => Nat.isDigit_of_mem_toDigits (by decide) (by decide) hc
  rw [Nat.repr_eq_ofList_toDigits, String.toList_ofList, indexOfToken?]
  rcases Nat.eq_zero_or_pos n with rfl | hpos
  · rfl
  · have hhead := head?_toDigits_ne hpos
    have hzero : Nat.toDigits 10 n ≠ ['0'] := fun heq => hhead (by rw [heq]; rfl)
    rw [if_neg hzero, if_neg hhead, if_pos ⟨Nat.toDigits_ne_nil, hdigits⟩]
    exact congrArg some hvalue

variable {document node child : Json}

/-- An edge is written as a segment that names the same child. -/
theorem exists_segment_of_along? {edge : Edge} (h : node.along? edge = some child) :
    ∃ segment, edge.segment? = some segment ∧ node.child? segment = some child := by
  cases edge with
  | root => simp [along?] at h
  | key key =>
      refine ⟨key, rfl, ?_⟩
      cases node with
      | obj members => exact h
      | _ => simp [along?, get?] at h
  | index index =>
      refine ⟨Nat.repr index, rfl, ?_⟩
      cases node with
      | arr elements =>
          rw [child?, indexOfToken?_repr, Option.bind_some]
          exact h
      | _ => simp [along?, element?] at h

/-- The node at the end of a path is the one that its place names. -/
theorem descend?_ofPath {path : List Edge} (h : document.at? path = some node) :
    document.descend? (Place.ofPath path) = some node := by
  induction path generalizing document with
  | nil => simpa [Place.ofPath, descend?, at?] using h
  | cons edge rest ih =>
      obtain ⟨child, hchild, hrest⟩ := Option.bind_eq_some_iff.mp h
      obtain ⟨segment, hsegment, hnamed⟩ := exists_segment_of_along? hchild
      rw [Place.ofPath, List.filterMap_cons_some hsegment, descend?, List.foldlM_cons, hnamed]
      exact ih hrest

/-- Two edges out of one node that are written alike are the same. -/
theorem edge_eq_of_segment?_eq {other : Json} {first second : Edge}
    (hfirst : node.along? first = some child) (hsecond : node.along? second = some other)
    (h : first.segment? = second.segment?) : first = second := by
  cases node with
  | obj members =>
      cases first <;> cases second <;> simp_all [along?, element?, Edge.segment?]
  | arr elements =>
      cases first with
      | index i =>
          cases second with
          | index j =>
              have hrepr : Nat.repr i = Nat.repr j := Option.some.inj h
              have hsame := indexOfToken?_repr i
              rw [hrepr, indexOfToken?_repr] at hsame
              rw [Option.some.inj hsame]
          | _ => simp [along?, get?] at hsecond
      | _ => simp [along?, get?] at hfirst
  | _ => cases first <;> simp [along?, get?, element?] at hfirst

theorem eq_of_ofPath_eq {other : Json} {path others : List Edge}
    (hpath : document.at? path = some node) (hothers : document.at? others = some other)
    (h : Place.ofPath path = Place.ofPath others) : path = others := by
  induction path generalizing document others with
  | nil =>
      cases others with
      | nil => rfl
      | cons second rest =>
          obtain ⟨child, hchild, -⟩ := Option.bind_eq_some_iff.mp hothers
          obtain ⟨segment, hsegment, -⟩ := exists_segment_of_along? hchild
          simp [Place.ofPath, List.filterMap_cons_some hsegment] at h
  | cons first rest ih =>
      obtain ⟨child, hchild, hrest⟩ := Option.bind_eq_some_iff.mp hpath
      obtain ⟨segment, hsegment, -⟩ := exists_segment_of_along? hchild
      cases others with
      | nil => simp [Place.ofPath, List.filterMap_cons_some hsegment] at h
      | cons second others =>
          obtain ⟨child', hchild', hothers⟩ := Option.bind_eq_some_iff.mp hothers
          obtain ⟨segment', hsegment', -⟩ := exists_segment_of_along? hchild'
          simp only [Place.ofPath, List.filterMap_cons_some hsegment,
            List.filterMap_cons_some hsegment', List.cons.injEq] at h
          obtain ⟨hsame, hplaces⟩ := h
          obtain rfl := edge_eq_of_segment?_eq hchild hchild' (by rw [hsegment, hsegment', hsame])
          rw [hchild] at hchild'
          obtain rfl := Option.some.inj hchild'
          rw [ih hrest hothers hplaces]

end Json

end ApiInterfaces
