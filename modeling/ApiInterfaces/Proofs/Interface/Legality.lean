import ApiInterfaces.Proofs.Interface.Nesting
import ApiInterfaces.Proofs.Naming.Runs

/-!
The names of a run as identifiers of a language. Cleaning keeps more characters than a language
lets identifiers have, so a name is an identifier exactly if all the characters that its text
keeps may stand there; the number that a taken name gets is of no consequence.
-/

namespace ApiInterfaces.Compilation

open Naming

/-- What an object is granted is what it has asked for, maybe with a number. -/
theorem granted_of_mem_claimsOf {calls : List Call} {claim : ObjectClaim}
    (h : claim ∈ claimsOf calls) :
    claim.name = claim.base ∨ ∃ n, claim.name = Registry.numbered claim.base n := by
  have hnames := Registry.forall₂_claimAll {} ((claimsOf calls).map (·.base))
  have hgranted : (({} : Registry).claimAll ((claimsOf calls).map (·.base))).1 =
      (claimsOf calls).map (·.name) := congrArg Prod.fst (traced_run calls).granted
  rw [hgranted, List.forall₂_map_left_iff, List.forall₂_map_right_iff, List.forall₂_same] at hnames
  exact hnames claim h

/-- The name of an object is an identifier if and only if the runs of its text join to one. -/
theorem legal_claim_iff (s : IdentifierSyntax) {calls : List Call} {claim : ObjectClaim}
    (h : claim ∈ claimsOf calls) :
    s.Legal claim.name ↔ s.Opens ((runs claim.source).flatMap Run.word) := by
  have hbase : s.Legal claim.base ↔ s.Opens ((runs claim.source).flatMap Run.word) := by
    rw [claim.base_eq, IdentifierSyntax.legal_identifierChars_iff, flatMap_word_runs]
  rcases granted_of_mem_claimsOf h with hname | ⟨n, hname⟩
  · rw [hname, hbase]
  · have hne : claim.base ≠ "" := by
      rw [claim.base_eq, Ne, String.ofList_eq_empty_iff]
      exact identifierChars_ne_nil claim.source
    rw [hname, IdentifierSyntax.legal_numbered_iff hne, hbase]

/-- In every run each interface has a name that is an identifier, as long as all alphanumeric
characters of the texts that names are made from may begin one, as they stand and in upper case,
or are decimal digits of ASCII. -/
theorem names_legal (s : IdentifierSyntax) {A : Char → Prop} (h : s.Tames A) (calls : List Call)
    (htexts : ∀ call ∈ calls, ∀ text ∈ call.texts, ∀ c ∈ text.toList, A c) :
    ∀ d ∈ (({} : Compilation).run calls).2.declarations, s.Legal d.name := by
  intro d hd
  exact (h.preserves.named_run htexts d hd).legal

/-- A run names its declarations by its claims, in order. The name of a claim is an identifier if
and only if the identifier characters of its text, as joined and capitalised in a name, may stand
in one, the first of them at its beginning unless it is a decimal digit of ASCII; so all names of
the run are if and only if this is so of all texts. It is if the alphanumeric characters of the
document's texts may begin an identifier, as they stand and in upper case, or are decimal digits
of ASCII. -/
theorem names_legal_iff (s : IdentifierSyntax) (calls : List Call) :
    let c := (({} : Compilation).run calls).2
    let claims := claimsOf calls
    claims.map (·.name) = c.declarations.map (·.name) ∧
    (∀ claim ∈ claims, s.Legal claim.name ↔ s.Opens ((runs claim.source).flatMap Run.word)) ∧
    ((∀ d ∈ c.declarations, s.Legal d.name) ↔
      ∀ claim ∈ claims, s.Opens ((runs claim.source).flatMap Run.word)) ∧
    ∀ A, s.Tames A → (∀ call ∈ calls, ∀ text ∈ call.texts, ∀ c ∈ text.toList, A c) →
      ∀ d ∈ c.declarations, s.Legal d.name := by
  intro c claims
  have hnames : claims.map (·.name) = c.declarations.map (·.name) := by
    simpa using (traced_run calls).declared.symm
  have hclaims : ∀ claim ∈ claims,
      (s.Legal claim.name ↔ s.Opens ((runs claim.source).flatMap Run.word)) :=
    fun claim hclaim => legal_claim_iff s hclaim
  refine ⟨hnames, hclaims, ?_, fun A hA htexts => names_legal s hA calls htexts⟩
  calc (∀ d ∈ c.declarations, s.Legal d.name)
      ↔ ∀ name ∈ c.declarations.map (·.name), s.Legal name := List.forall_mem_map.symm
    _ ↔ ∀ claim ∈ claims, s.Legal claim.name := by rw [← hnames, List.forall_mem_map]
    _ ↔ ∀ claim ∈ claims, s.Opens ((runs claim.source).flatMap Run.word) :=
      forall₂_congr hclaims

/-- Characters that no identifier may hold are dropped, a decimal digit is put behind `_`,
and a name that is taken gets a number. -/
theorem names_legal_owner :
    let pet := Shape.object [] [] false {}
    let owner := Shape.object [("pet-id", pet), ("pet id", pet)] [] false
      { title := some "2nd owner" }
    let c := (({} : Compilation).run [.definition ["definitions"] owner]).2
    c.declarations.map (·.name) = ["_2ndOwner", "_2ndOwnerPetId", "_2ndOwnerPetId0"] ∧
      ∀ d ∈ c.declarations, IdentifierSyntax.ascii.Legal d.name := by
  intro pet owner c
  refine ⟨by decide +kernel, ?_⟩
  have hlegal := names_legal_iff IdentifierSyntax.ascii [.definition ["definitions"] owner]
  apply hlegal.2.2.2 _ IdentifierSyntax.ascii.tames_ascii
  intro call hcall text htext c hc
  obtain rfl := List.mem_singleton.mp hcall
  have htexts : ["definitions", "2nd owner", "pet-id", "pet id"].all
      (·.toList.all (·.toNat < 128)) = true := by decide +kernel
  simpa using List.all_eq_true.mp (List.all_eq_true.mp htexts text htext) c hc

/-- A superscript digit is kept wherever it stands, and a decimal digit of another script at the
start of a name. Neither may stand there where identifiers are as the language has them. -/
theorem names_legal_not_digits :
    let area := Shape.object [] [] false { title := some "area m²" }
    let items := Shape.object [] [] false { title := some "٣ items" }
    let c := (({} : Compilation).run [.definition ["a"] area, .definition ["b"] items]).2
    c.declarations.map (·.name) = ["AreaM²", "٣Items"] ∧
      ∀ s : IdentifierSyntax, (¬ s.part '²' → ¬ s.Legal "AreaM²") ∧
        (¬ s.start '٣' → ¬ s.Legal "٣Items") := by
  intro area items c
  refine ⟨by decide +kernel, fun s => ⟨?_, ?_⟩⟩
  · rintro hsquare ⟨first, rest, hname, -, hrest⟩
    obtain ⟨rfl, rfl⟩ := List.cons.inj hname
    exact hsquare (hrest '²' (by decide))
  · rintro hdigit ⟨first, rest, hname, hfirst, -⟩
    obtain ⟨rfl, rfl⟩ := List.cons.inj hname
    exact hdigit hfirst

end ApiInterfaces.Compilation
