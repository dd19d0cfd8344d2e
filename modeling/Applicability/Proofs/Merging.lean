/-
Merging: attributes with the entries of a table laid over them.

The entries are handed over as named fields. Two names are taken by the reading itself, and a table
with one of them is refused; every other table is laid over the attributes.

* `Attributes.ext_get?`: attributes are their names, in order, and the values of these;
* `names_overlay`: what is laid over known names keeps their places, and new names come last;
* `overlay_overlay`: laying two lists over attributes lays the second one, laid over the first;
* `merged_table`: merging lays the entries over the attributes, unless one of the names is taken;
* `merged_layers`: what merging gives for every table, how often and in how many steps it is done;
* `merged_refuses_taken_name`: a name that cannot be merged.
-/
import Mathlib.Data.List.Nodup
import Applicability.Proofs.CommonNames

namespace Applicability

namespace Attributes

variable {a b s : Attributes} {es fs : List (String × String)} {name : String}

/-! ### Names and values -/

lemma entries_eq (a : Attributes) :
    a.entries = a.names.filterMap fun name => (a.get? name).map (name, ·) := by
  rw [names, List.filterMap_map]
  refine (List.filterMap_some.symm.trans (List.filterMap_congr fun e he => ?_))
  have hvalue : a.get? e.1 = some e.2 := (a.get?_eq_some_iff e.1 e.2).mpr he
  simp [hvalue]

/-- **Attributes are determined** by their names in order and the values of these. -/
lemma ext_get? (hnames : a.names = b.names) (hvalues : ∀ name, a.get? name = b.get? name) :
    a = b := by
  have hentries : a.entries = b.entries := by
    rw [entries_eq, entries_eq, hnames]
    simp only [hvalues]
  cases a
  cases b
  cases hentries
  rfl

/-- Known names keep their places, and new ones come last in their order. -/
lemma names_overlay (hes : (es.map Prod.fst).Nodup) (a : Attributes) :
    (a.overlay es).names = a.names ++ (es.map Prod.fst).filter (· ∉ a.names) := by
  induction es generalizing a with
  | nil => simp [overlay]
  | cons e es ih =>
      obtain ⟨hnew, hes⟩ := List.nodup_cons.mp hes
      have hstep : (a.overlay (e :: es)).names = (a.insert e.1 e.2).names ++
          (es.map Prod.fst).filter (· ∉ (a.insert e.1 e.2).names) := ih hes (a.insert e.1 e.2)
      rw [hstep, names_insert, List.map_cons]
      by_cases hknown : e.1 ∈ a.names
      · simp [hknown]
      · -- the name is new, and does not come again
        have hrest : (es.map Prod.fst).filter (· ∉ a.names ++ [e.1]) =
            (es.map Prod.fst).filter (· ∉ a.names) := by
          refine List.filter_congr fun name hname => ?_
          have hne : name ≠ e.1 := fun h => hnew (h ▸ hname)
          simp [hne]
        rw [if_neg hknown, hrest]
        simp [hknown]

lemma ofList_entries (a : Attributes) : ofList a.entries = a := by
  refine ext_get? ?_ fun name => ?_
  · rw [ofList, names_overlay a.nodup]
    simp [names, empty]
  · rw [ofList, get?_overlay a.nodup]
    simp [get?, empty]

/-! ### Laying several lists over attributes -/

lemma get?_overlay_entries (a b : Attributes) (name : String) :
    (a.overlay b.entries).get? name = (b.get? name).or (a.get? name) := get?_overlay b.nodup a name

/-- **Laying two lists over attributes**, one after the other, lays the second one, laid over the
first. -/
lemma overlay_overlay (s a b : Attributes) :
    (s.overlay a.entries).overlay b.entries = s.overlay (a.overlay b.entries).entries := by
  refine ext_get? ?_ fun name => ?_
  · have hnames : ∀ p q : Attributes, (p.overlay q.entries).names =
        p.names ++ q.names.filter (· ∉ p.names) := fun p q => names_overlay q.nodup p
    rw [hnames, hnames, hnames, hnames, List.filter_append, List.filter_filter, List.append_assoc]
    congr 2
    refine List.filter_congr fun name _ => ?_
    simp only [List.mem_append, List.mem_filter]
    by_cases hs : name ∈ s.names <;> by_cases ha : name ∈ a.names <;> simp [hs, ha]
  · simp only [get?_overlay_entries, Option.or_assoc]

/-! ### Merging -/

/-- The names that the reading itself needs. -/
def isTaken (name : String) : Bool := name == "data" || name == "self"

/-- The written names of a table. -/
def writtenNames (entries : List (Datum × Datum)) : List String :=
  entries.map fun e => e.1.written

lemma map_fst_writtenEntries (entries : List (Datum × Datum)) :
    (writtenEntries entries).map Prod.fst = writtenNames entries := by
  rw [writtenEntries, List.map_map]
  rfl

/-- The written entries of a table are those of attributes, if no name comes twice. -/
lemma exists_entries {entries : List (Datum × Datum)} (h : (writtenNames entries).Nodup) :
    ∃ a : Attributes, writtenEntries entries = a.entries :=
  ⟨⟨_, map_fst_writtenEntries entries ▸ h⟩, rfl⟩

/-- The first field with a name that is taken is refused. -/
lemma refuseTaken_eq (fields : List (String × String)) :
    refuseTaken fields =
      (fields.find? fun e => isTaken e.1).elim (.ok ()) fun e => .error (.nameTaken e.1) := by
  unfold refuseTaken
  split
  · next e he =>
    have hfound : (fields.find? fun e => isTaken e.1) = some e := he
    rw [hfound, Option.elim_some]
  · next hnone =>
    have hfound : (fields.find? fun e => isTaken e.1) = none := hnone
    rw [hfound, Option.elim_none]

/-- **Merging** lays the entries of a table over the attributes, unless a name of it is taken. -/
lemma merged_table (s : Attributes) (entries : List (Datum × Datum)) :
    s.merged (.table entries) =
      match (writtenNames entries).find? isTaken with
      | some name => .error (.nameTaken name)
      | none => .ok (s.overlay (writtenEntries entries)) := by
  rw [merged, refuseTaken_eq, ← map_fst_writtenEntries, List.find?_map, Function.comp_def]
  cases (writtenEntries entries).find? fun e => isTaken e.1 <;> rfl

lemma merged_of_free {entries : List (Datum × Datum)}
    (hfree : ∀ name ∈ writtenNames entries, isTaken name = false) (s : Attributes) :
    s.merged (.table entries) = .ok (s.overlay (writtenEntries entries)) := by
  have hnone : (writtenNames entries).find? isTaken = none :=
    List.find?_eq_none.mpr fun name hname => by simp [hfree name hname]
  rw [merged_table, hnone]

/-- Merging is refused for the first name that is taken. -/
lemma merged_eq_error_iff {entries : List (Datum × Datum)} :
    s.merged (.table entries) = .error (.nameTaken name) ↔
      (writtenNames entries).find? isTaken = some name := by
  rw [merged_table]
  cases (writtenNames entries).find? isTaken <;> simp

/-- Table `c` reads like table `a` with table `b` laid over it. -/
def ReadsAsOverlay (c a b : List (Datum × Datum)) : Prop :=
  writtenEntries c = ((ofList (writtenEntries a)).overlay (writtenEntries b)).entries

instance (c a b : List (Datum × Datum)) : Decidable (ReadsAsOverlay c a b) :=
  inferInstanceAs (Decidable (_ = _))

/-- **Merging two tables**, one after the other, merges the second one, laid over the first. -/
lemma merged_merged {a b c : List (Datum × Datum)} (ha : (writtenNames a).Nodup)
    (hb : (writtenNames b).Nodup) (hc : ReadsAsOverlay c a b) (s : Attributes) :
    (s.merged (.table a) >>= fun t => t.merged (.table b)) = s.merged (.table c) := by
  obtain ⟨p, hp⟩ := exists_entries ha
  obtain ⟨q, hq⟩ := exists_entries hb
  rw [ReadsAsOverlay, hp, hq, ofList_entries] at hc
  have hnames : writtenNames c = p.names ++ q.names.filter (· ∉ p.names) := by
    rw [← map_fst_writtenEntries, hc]
    exact names_overlay q.nodup p
  have hfirst : writtenNames a = p.names := by rw [← map_fst_writtenEntries, hp, names]
  have hsecond : writtenNames b = q.names := by rw [← map_fst_writtenEntries, hq, names]
  rw [merged_table, merged_table, hfirst, hnames, List.find?_append]
  cases htaken : p.names.find? isTaken with
  | some name => rfl
  | none =>
      -- a name of the second table that is taken is not one of the first
      have hlater : (q.names.filter (· ∉ p.names)).find? isTaken = q.names.find? isTaken := by
        rw [← List.head?_filter, ← List.head?_filter, List.filter_filter]
        refine congrArg _ (List.filter_congr fun name _ => ?_)
        by_cases hname : name ∈ p.names
        · simp [List.find?_eq_none.mp htaken name hname]
        · simp [hname]
      change (s.overlay (writtenEntries a)).merged (.table b) = _
      rw [merged_table, hsecond, Option.none_or, hlater, hp, hq, hc, overlay_overlay]

/-! ### Tables laid over each other -/

lemma overlay_self (a : Attributes) : a.overlay a.entries = a := by
  refine ext_get? ?_ fun name => ?_
  · have hnone : a.names.filter (· ∉ a.names) = [] :=
      List.filter_eq_nil_iff.mpr fun name hname => by simp [hname]
    exact (names_overlay a.nodup a).trans (by rw [← names, hnone, List.append_nil])
  · rw [get?_overlay_entries, Option.or_self]

lemma readsAsOverlay_self {a : List (Datum × Datum)} (ha : (writtenNames a).Nodup) :
    ReadsAsOverlay a a a := by
  obtain ⟨p, hp⟩ := exists_entries ha
  rw [ReadsAsOverlay, hp, ofList_entries, overlay_self]

/-- A table whose entries are named by texts. -/
def NamedByTexts (entries : List (Datum × Datum)) : Prop := ∀ e ∈ entries, ∃ t, e.1 = .text t

/-- Writing an entry that is named by a text, as data and as texts. -/
lemma writtenEntries_put {entries : List (Datum × Datum)} (htext : NamedByTexts entries)
    (t : String) (value : Datum) :
    writtenEntries (Datum.put (.text t) value entries) =
      put t value.written (writtenEntries entries) ∧
    NamedByTexts (Datum.put (.text t) value entries) := by
  induction entries with
  | nil => exact ⟨rfl, by simp [NamedByTexts, Datum.put]⟩
  | cons e rest ih =>
      obtain ⟨k, v⟩ := e
      obtain ⟨t', rfl : k = .text t'⟩ := htext _ (List.mem_cons_self)
      have htexts : NamedByTexts rest := fun e he => htext e (List.mem_cons_of_mem _ he)
      obtain ⟨hwritten, hnamed⟩ := ih htexts
      rw [writtenEntries] at hwritten ⊢
      rw [NamedByTexts] at hnamed htexts ⊢
      by_cases hsame : t' = t
      · simpa [Datum.put, Datum.same, put, writtenEntries, hsame] using htexts
      · simpa [Datum.put, Datum.same, put, writtenEntries, hsame, hwritten] using hnamed

lemma entries_overlay (a : Attributes) (es : List (String × String)) :
    (a.overlay es).entries = es.foldl (fun entries e => put e.1 e.2 entries) a.entries :=
  (List.foldl_hom entries fun _ _ => rfl).symm

/-- **Writing the entries of a table into another one** lays it over that, if they are named by
texts. -/
lemma readsAsOverlay_put {a b : List (Datum × Datum)} (ha : (writtenNames a).Nodup)
    (hta : NamedByTexts a) (htb : NamedByTexts b) :
    ReadsAsOverlay (b.foldl (fun entries e => Datum.put e.1 e.2 entries) a) a b := by
  obtain ⟨p, hp⟩ := exists_entries ha
  rw [ReadsAsOverlay, hp, ofList_entries, entries_overlay, ← hp]
  clear hp ha
  induction b generalizing a with
  | nil => rfl
  | cons e b ih =>
      obtain ⟨k, v⟩ := e
      obtain ⟨t, rfl : k = .text t⟩ := htb _ (List.mem_cons_self)
      obtain ⟨hwritten, hnamed⟩ := writtenEntries_put hta t v
      have hrest := ih hnamed fun e he => htb e (List.mem_cons_of_mem _ he)
      rw [hwritten] at hrest
      exact hrest

/-! ### What merging gives -/

/-- **Merging lays the entries of a table over the attributes.** A table is refused for the first of
its names that is taken, and for nothing else. Otherwise every name has the value of the table, if
it is one of its names, and the one of before if not; the names of before keep their places, and the
new ones follow in their order. Merging two tables one after the other merges the second one, laid
over the first; so does merging the table that the entries of the second one are written into, if
both are named by texts. Merging a table again changes nothing. -/
theorem merged_layers (s : Attributes) :
    (∀ entries, (writtenNames entries).Nodup →
      (∀ name, s.merged (.table entries) = .error (.nameTaken name) ↔
        (writtenNames entries).find? isTaken = some name) ∧
      ((∀ name ∈ writtenNames entries, isTaken name = false) →
        ∃ t, s.merged (.table entries) = .ok t ∧
          (∀ name, t.get? name = ((writtenEntries entries).lookup name).or (s.get? name)) ∧
          t.names = s.names ++ (writtenNames entries).filter (· ∉ s.names))) ∧
    (∀ a b, (writtenNames a).Nodup → (writtenNames b).Nodup →
      (∀ c, ReadsAsOverlay c a b →
        (s.merged (.table a) >>= fun t => t.merged (.table b)) = s.merged (.table c)) ∧
      (NamedByTexts a → NamedByTexts b →
        (s.merged (.table a) >>= fun t => t.merged (.table b)) =
          s.merged (.table (b.foldl (fun entries e => Datum.put e.1 e.2 entries) a)))) ∧
    ∀ a, (writtenNames a).Nodup →
      (s.merged (.table a) >>= fun t => t.merged (.table a)) = s.merged (.table a) := by
  refine ⟨fun entries hentries => ⟨fun name => merged_eq_error_iff, fun hfree => ?_⟩,
    fun a b ha hb => ⟨fun c hc => merged_merged ha hb hc s, fun hta htb => ?_⟩, fun a ha => ?_⟩
  · have hes : ((writtenEntries entries).map Prod.fst).Nodup :=
      map_fst_writtenEntries entries ▸ hentries
    refine ⟨_, merged_of_free hfree s, fun name => get?_overlay hes s name, ?_⟩
    rw [names_overlay hes, map_fst_writtenEntries]
  · exact merged_merged ha hb (readsAsOverlay_put ha hta htb) s
  · exact merged_merged ha ha (readsAsOverlay_self ha) s

/-- A target with another core, a number as a name, and a name that is taken. -/
theorem merged_layers_sample :
    let s := ofList [("core", "M4"), ("vendor", "ST")]
    let a : List (Datum × Datum) := [(.whole 5, .boolean true), (.text "core", .text "M7")]
    let b : List (Datum × Datum) := [(.text "5", .text "no"), (.text "fpu", .whole 1)]
    let taken : List (Datum × Datum) := [(.text "fpu", .whole 1), (.text "self", .text "x")]
    (writtenNames a).Nodup ∧ (writtenNames b).Nodup ∧ (writtenNames taken).Nodup ∧
      s.merged (.table taken) = .error (.nameTaken "self") ∧
      (∃ t, s.merged (.table a) = .ok t ∧ t.get? "core" = some "M7" ∧ t.get? "5" = some "True" ∧
        t.get? "vendor" = some "ST" ∧ t.names = ["core", "vendor", "5"]) ∧
      (s.merged (.table a) >>= fun t => t.merged (.table b)) =
        s.merged (.table [(.text "5", .text "no"), (.text "core", .text "M7"),
          (.text "fpu", .whole 1)]) ∧
      (s.merged (.table a) >>= fun t => t.merged (.table a)) = s.merged (.table a) := by
  intro s a b taken
  have ha : (writtenNames a).Nodup := by decide
  have hb : (writtenNames b).Nodup := by decide
  have htaken : (writtenNames taken).Nodup := by decide
  obtain ⟨hone, htwo, hagain⟩ := merged_layers s
  obtain ⟨t, ht, hvalue, hnames⟩ := (hone a ha).2 (by decide)
  refine ⟨ha, hb, htaken, ((hone taken htaken).1 "self").mpr (by decide), ⟨t, ht, ?_, ?_, ?_, ?_⟩,
    (htwo a b ha hb).1 _ (by decide), hagain a ha⟩
  · exact (hvalue _).trans (by decide)
  · exact (hvalue _).trans (by decide)
  · exact (hvalue _).trans (by decide)
  · exact hnames.trans (by decide)

/-- **A name that cannot be merged**, although attributes may have it. -/
theorem merged_refuses_taken_name :
    (∃ a : Attributes, a.get? "data" = some "x") ∧
      ¬ ∃ t, empty.merged (.table [(.text "data", .text "x")]) = .ok t := by
  refine ⟨⟨ofList [("data", "x")], by decide⟩, ?_⟩
  rintro ⟨t, ht⟩
  cases ht

end Attributes

end Applicability
