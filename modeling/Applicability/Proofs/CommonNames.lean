/-
Common names: what the usual matcher makes of two lists of attributes.

The matcher walks through the predicate and skips the names that the target has not. All that counts
in the end is which value every name has, on either side.

* `Attributes.same_iff_perm`, `Attributes.get?_of_same`: attributes that are equal without regard to
  order have the same entries, and so the same values;
* `Attributes.merged_toDatum`, `Attributes.get?_overlay`: merging attributes;
* `agree_comm`: predicate and target can change places;
* `agree_congr`: only the values of the names count;
* `agree_merged`: merged predicates without a common name both have to be met.
-/
import Mathlib.Data.List.Nodup
import Mathlib.Data.List.Perm.Subperm
import Applicability.Attributes.Reading
import Applicability.Matcher

namespace Applicability

namespace Attributes

variable {a b p q : Attributes} {name : String}

/-! ### Equality without regard to order -/

lemma entries_nodup (a : Attributes) : a.entries.Nodup := .of_map _ a.nodup

/-- **Equal without regard to order** are attributes with the same entries. -/
lemma same_iff_perm : a.same b = true ↔ a.entries.Perm b.entries := by
  simp only [same, size, Bool.and_eq_true, beq_iff_eq, List.all_eq_true]
  constructor
  · rintro ⟨hsize, hall⟩
    -- neither list has an entry twice, so that it is enough to count them
    have hsubset : a.entries ⊆ b.entries := fun e he => (b.get?_eq_some_iff e.1 e.2).mp (hall e he)
    exact (List.subperm_of_subset a.entries_nodup hsubset).perm_of_length_le
      (Nat.le_of_eq hsize.symm)
  · exact fun h => ⟨h.length_eq, fun e he => (b.get?_eq_some_iff e.1 e.2).mpr (h.mem_iff.mp he)⟩

lemma get?_of_perm (h : a.entries.Perm b.entries) (name : String) : a.get? name = b.get? name := by
  ext value
  rw [get?_eq_some_iff, get?_eq_some_iff, h.mem_iff]

lemma get?_of_same (h : a.same b = true) (name : String) : a.get? name = b.get? name :=
  get?_of_perm (same_iff_perm.mp h) name

lemma same_refl (a : Attributes) : a.same a = true := same_iff_perm.mpr (.refl _)

/-! ### Merging -/

/-- The value of a name in attributes that entries of different names are laid over. -/
lemma get?_overlay {es : List (String × String)} (hes : (es.map Prod.fst).Nodup) (a : Attributes)
    (name : String) : (a.overlay es).get? name = (es.lookup name).or (a.get? name) := by
  induction es generalizing a with
  | nil => rfl
  | cons e es ih =>
      obtain ⟨hnew, hes⟩ := List.nodup_cons.mp hes
      have hstep : (a.overlay (e :: es)).get? name =
          (es.lookup name).or ((a.insert e.1 e.2).get? name) := ih hes (a.insert e.1 e.2)
      rw [hstep, get?_insert, List.lookup_cons]
      by_cases hname : name = e.1
      · have hnone : es.lookup name = none := List.lookup_eq_none_iff.mpr fun e' he' =>
          bne_iff_ne.mpr fun he => hnew (hname ▸ he ▸ List.mem_map_of_mem he')
        simp [hname ▸ hnone, hname]
      · have hother : (name == e.1) = false := by simpa using hname
        simp [hname, hother]

/-- **Merging attributes** lays the entries of the others over them, unless one of their names is
taken. -/
lemma merged_toDatum (hdata : "data" ∉ q.names) (hself : "self" ∉ q.names) :
    p.merged q.toDatum = .ok (p.overlay q.entries) := by
  have hentries : writtenEntries (q.entries.map fun e => (.text e.1, .text e.2)) = q.entries := by
    rw [writtenEntries, List.map_map]
    exact List.map_id _
  have hfree : refuseTaken q.entries = .ok () := by
    rw [refuseTaken, List.find?_eq_none.mpr]
    intro e he
    have hname : e.1 ∈ q.names := List.mem_map_of_mem he
    simp only [Bool.or_eq_true, beq_iff_eq, not_or]
    exact ⟨fun h => hdata (h ▸ hname), fun h => hself (h ▸ hname)⟩
  rw [toDatum, merged, hentries, hfree]
  rfl

end Attributes

/-! ### The usual matcher -/

variable {observeCase : Bool} {p q p' t t' : Attributes}

lemma matchEither_comm (a b : String) :
    Wildcard.matchEither observeCase a b = Wildcard.matchEither observeCase b a :=
  Bool.or_comm _ _

/-- **Predicate and target can change places.** -/
lemma agree_comm : agree observeCase p t = agree observeCase t p := by
  have hswap : ∀ {p t}, agree observeCase p t = true → agree observeCase t p = true := by
    intro p t h
    rw [agree_iff] at h ⊢
    intro name expected actual ht hp
    rw [matchEither_comm]
    exact h name actual expected hp ht
  exact Bool.eq_iff_iff.mpr ⟨hswap, hswap⟩

/-- **Only the values of the names count**, on both sides. -/
lemma agree_congr (hp : ∀ name, p.get? name = p'.get? name)
    (ht : ∀ name, t.get? name = t'.get? name) :
    agree observeCase p t = agree observeCase p' t' := by
  rw [Bool.eq_iff_iff, agree_iff, agree_iff]
  simp only [hp, ht]

/-- A value of merged attributes without a common name is one of either. -/
lemma Attributes.get?_merged_iff (hdisjoint : p.names.Disjoint q.names) {name value : String} :
    (p.overlay q.entries).get? name = some value ↔
      p.get? name = some value ∨ q.get? name = some value := by
  have hq : (p.overlay q.entries).get? name = (q.get? name).or (p.get? name) :=
    get?_overlay q.nodup p name
  rw [hq]
  cases hvalue : q.get? name with
  | none => simp
  | some actual =>
      have hnot : p.get? name ≠ some value := fun hp =>
        hdisjoint ((p.mem_names_iff name).mpr (by rw [has, hp]; rfl))
          ((q.mem_names_iff name).mpr (by rw [has, hvalue]; rfl))
      simp [hnot]

/-- **Merged predicates** without a common name both have to be met. -/
lemma agree_merged (hdisjoint : p.names.Disjoint q.names) :
    agree observeCase (p.overlay q.entries) t =
      (agree observeCase p t && agree observeCase q t) := by
  rw [Bool.eq_iff_iff, Bool.and_eq_true, agree_iff, agree_iff, agree_iff]
  simp only [Attributes.get?_merged_iff hdisjoint]
  constructor
  · exact fun h => ⟨fun name expected actual hp => h name expected actual (.inl hp),
      fun name expected actual hq => h name expected actual (.inr hq)⟩
  · rintro ⟨hp, hq⟩ name expected actual (h | h)
    · exact hp name expected actual h
    · exact hq name expected actual h

end Applicability
