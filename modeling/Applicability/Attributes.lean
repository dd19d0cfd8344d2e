/-
Attributes: names with values, in the order in which the names were first given.

Both the target of an evaluation and the predicate of an expression are attributes. No name occurs
twice, and the type says so.

* `Attributes.insert`, with `get?_insert` and `names_insert`: a known name keeps its place and takes
  the new value, a new one comes last, and no other value changes;
* `Attributes.overlay`: the entries of a list laid over attributes, one after the other;
* `Attributes.get?_eq_some_iff`: the entries are the values of their names;
* `Attributes.same`: equality without regard to order.
-/

namespace Applicability

/-- Names with values; no name occurs twice. -/
structure Attributes where
  entries : List (String × String)
  nodup : (entries.map Prod.fst).Nodup
deriving DecidableEq, Repr

namespace Attributes

/-- No attributes. -/
def empty : Attributes := ⟨[], List.nodup_nil⟩

instance : Inhabited Attributes := ⟨empty⟩

/-- The names in their order. -/
def names (a : Attributes) : List String := a.entries.map Prod.fst

/-- The number of attributes. -/
def size (a : Attributes) : Nat := a.entries.length

/-- The value of a name. -/
def get? (a : Attributes) (name : String) : Option String := a.entries.lookup name

/-- A name that has a value. -/
def has (a : Attributes) (name : String) : Bool := (a.get? name).isSome

/-- Writes an entry of a list in place, or adds it at the end. -/
def put (name value : String) : List (String × String) → List (String × String)
  | [] => [(name, value)]
  | e :: rest => if e.1 = name then (name, value) :: rest else e :: put name value rest

/-- Writing an entry leaves the names as they are, or adds one at the end. -/
theorem map_fst_put (name value : String) (es : List (String × String)) :
    (put name value es).map Prod.fst =
      if name ∈ es.map Prod.fst then es.map Prod.fst else es.map Prod.fst ++ [name] := by
  induction es with
  | nil => rfl
  | cons e rest ih =>
    by_cases h : e.1 = name
    · simp [put, h]
    · have h' : name ≠ e.1 := fun he => h he.symm
      simp only [put, h, if_false, List.map_cons, ih, List.mem_cons, h', false_or]
      split <;> simp

/-- The attributes with one entry written. -/
def insert (a : Attributes) (name value : String) : Attributes where
  entries := put name value a.entries
  nodup := by
    rw [map_fst_put]
    split
    · exact a.nodup
    · rename_i h
      rw [List.nodup_append]
      refine ⟨a.nodup, by simp, fun x hx y hy => ?_⟩
      rintro rfl
      exact h (by simpa [List.mem_singleton.mp hy] using hx)

/-- The entries of a list laid over attributes, one after the other. -/
def overlay (a : Attributes) (es : List (String × String)) : Attributes :=
  es.foldl (fun b e => b.insert e.1 e.2) a

/-- The attributes that a list gives; of entries with one name the last counts. -/
def ofList (es : List (String × String)) : Attributes := empty.overlay es

/-- Equality without regard to order. -/
def same (a b : Attributes) : Bool :=
  a.size == b.size && a.entries.all fun e => b.get? e.1 == some e.2

/-- A known name keeps its place; a new one comes last. -/
theorem names_insert (a : Attributes) (name value : String) :
    (a.insert name value).names = if name ∈ a.names then a.names else a.names ++ [name] :=
  map_fst_put name value a.entries

/-- The value written is there, and no other value changes. -/
theorem get?_insert (a : Attributes) (name value other : String) :
    (a.insert name value).get? other = if other = name then some value else a.get? other := by
  unfold get? insert
  simp only
  induction a.entries with
  | nil =>
    by_cases h : other = name
    · simp [put, h]
    · have hb : (other == name) = false := by simpa using h
      simp [put, List.lookup_cons, h, hb]
  | cons e rest ih =>
    obtain ⟨k, v⟩ := e
    by_cases h : k = name
    · subst h
      by_cases ho : other = k
      · simp [put, ho]
      · have hb : (other == k) = false := by simpa using ho
        simp [put, List.lookup_cons, ho, hb]
    · by_cases ho : other = k
      · subst ho
        simp [put, h]
      · have hb : (other == k) = false := by simpa using ho
        simp [put, List.lookup_cons, h, hb, ih]

/-- The names are those that have a value. -/
theorem mem_names_iff (a : Attributes) (name : String) :
    name ∈ a.names ↔ a.has name = true := by
  unfold names has get?
  induction a.entries with
  | nil => simp
  | cons e rest ih =>
    by_cases h : name = e.1 <;> simp [h, ih]

/-- An entry is the value of its name. -/
theorem get?_eq_some_iff (a : Attributes) (name value : String) :
    a.get? name = some value ↔ (name, value) ∈ a.entries := by
  obtain ⟨es, hes⟩ := a
  simp only [get?]
  induction es with
  | nil => simp
  | cons e rest ih =>
    obtain ⟨k, v⟩ := e
    obtain ⟨hk, hrest⟩ := List.nodup_cons.mp hes
    by_cases h : name = k
    · subst h
      have : (name, value) ∉ rest := fun hm => hk (List.mem_map.mpr ⟨_, hm, rfl⟩)
      simp [this, eq_comm]
    · have hb : (name == k) = false := by simpa using h
      simp [List.lookup_cons, h, hb, ih hrest]

end Attributes

end Applicability
