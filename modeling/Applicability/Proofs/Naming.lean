/-
Naming: what the names of attributes say of their domain.

The first letter of a name tells its domain, unless a single name makes a reference. Only the names
count. Their order decides nothing but which one is reported, where several belong to no domain.

* `Domain.sortedNames_eq_ok`: names are put in order by their characters;
* `Domain.Begins`: a name begins with one of the letters of a domain;
* `Domain.Named`: the names of which the attributes of a domain consist;
* `Domain.Refused`: the four reasons to refuse names, and what is reported with each;
* `Domain.named_or_refused`: there is nothing between them. What names of either kind lead to is
  therefore all that inference does (`Domain.infer_eq_ok_iff`, `Domain.infer_eq_error_iff`);
* `Domain.inferred_from_names`: the domain of names, in whatever order they are.
-/
import Mathlib.Data.List.Sort
import Mathlib.Data.String.Basic
import Applicability.Proofs.Ascending
import Applicability.Proofs.Building

namespace Applicability

/-- A fault that is a coded problem of a kind. -/
def Fault.OfKind (f : Fault) (kind : Problem.Kind) : Prop := ∃ p, f = .problem p ∧ p.kind = kind

/-! ### The order of texts -/

namespace Datum

/-- **The order of texts.** Of other data it says nothing. -/
def TextAtMost (a b : Datum) : Prop := ∀ s, a = .text s → ∃ t, b = .text t ∧ s ≤ t

variable {a b : Datum} {answer : Bool}

@[simp] lemma textAtMost_text {s t : String} : TextAtMost (.text s) (.text t) ↔ s ≤ t := by
  simp [TextAtMost]

/-- Only a text is both before and behind a text, and it is the same one. -/
lemma TextAtMost.eq_text {t : String} (hle : TextAtMost a (.text t))
    (hge : TextAtMost (.text t) a) : a = .text t := by
  obtain ⟨s, rfl, hts⟩ := hge t rfl
  rw [le_antisymm (textAtMost_text.mp hle) hts]

/-- What a text is compared with is a text. -/
lemma ask_text_left {s : String} (h : ask .less (.text s) b = .ok answer) :
    ∃ t, b = .text t ∧ (answer = true ↔ s < t) := by
  cases b with
  | text t =>
      rw [ask_text] at h
      cases h
      exact ⟨t, rfl, by simp [Comparison.answer, compare_lt_iff_lt]⟩
  | _ => simp [ask, order, number?, Except.map] at h

lemma ask_text_right {t : String} (h : ask .less a (.text t) = .ok answer) :
    ∃ s, a = .text s ∧ (answer = true ↔ s < t) := by
  cases a with
  | text s =>
      obtain ⟨t', ht', hanswer⟩ := ask_text_left h
      cases ht'
      exact ⟨s, rfl, hanswer⟩
  | _ => simp [ask, order, number?, Except.map] at h

lemma ledTo_textAtMost :
    Sorting.LedTo (ask .less) (fun d => ∃ t, d = .text t) (fun _ => False) TextAtMost where
  trans a b c hab hbc s hs := by
    obtain ⟨t, ht, hst⟩ := hab s hs
    obtain ⟨u, hu, htu⟩ := hbc t ht
    exact ⟨u, hu, hst.trans htu⟩
  yes h s hs := by
    subst hs
    obtain ⟨t, ht, hanswer⟩ := ask_text_left h
    exact ⟨t, ht, (hanswer.mp rfl).le⟩
  no h t ht := by
    subst ht
    obtain ⟨s, hs, hanswer⟩ := ask_text_right h
    exact ⟨s, hs, not_lt.mp fun hlt => Bool.false_ne_true (hanswer.mpr hlt)⟩
  refused := by
    rintro _ _ e ⟨s, rfl⟩ ⟨t, rfl⟩ he
    rw [ask_text] at he
    cases he

end Datum

namespace Domain

/-- **Names are put in order** without fail, by their characters. -/
lemma sortedNames_eq_ok {names sorted : List String} (hperm : sorted.Perm names)
    (hsorted : sorted.Pairwise (· ≤ ·)) :
    sortedNames (names.map .text) = .ok (sorted.map .text) := by
  have htexts : ∀ d ∈ names.map Datum.text, ∃ t, d = .text t := by
    intro d hd
    obtain ⟨t, -, rfl⟩ := List.mem_map.mp hd
    exact ⟨t, rfl⟩
  have hmeets := Sorting.sort_meets Datum.ledTo_textAtMost htexts
  rw [sortedNames]
  cases hsort : Sorting.sort (Datum.ask .less) (names.map Datum.text) with
  | error f => exact (hmeets.of_eq_error hsort).elim
  | ok found =>
      obtain ⟨hfound, hascending⟩ := hmeets.of_eq_ok hsort
      have htarget : (sorted.map Datum.text).Pairwise Datum.TextAtMost :=
        List.pairwise_map.mpr (hsorted.imp Datum.textAtMost_text.mpr)
      -- ascending texts with the same elements are the same list
      refine congrArg _ (List.Perm.eq_of_pairwise ?_ hascending htarget
        (hfound.trans (hperm.map _).symm))
      intro a b _ hb hle hge
      obtain ⟨t, -, rfl⟩ := List.mem_map.mp hb
      exact hle.eq_text hge

/-! ### The names of a domain -/

/-- The letters with which the names of a domain begin. -/
def letters : Domain → List Char
  | device => ['D', 'P']
  | toolchain => ['T']
  | component => ['C']
  | reference | other _ => []

/-- A name is one of a domain if it begins with one of its letters. -/
def Begins (d : Domain) (name : String) : Prop := ∃ c ∈ d.letters, name.toList.head? = some c

variable {name : String} {d d' : Domain}

lemma ofLetter?_eq_some_iff {c : Char} {d : Domain} : ofLetter? c = some d ↔ c ∈ d.letters := by
  constructor
  · intro h
    unfold ofLetter? at h
    split at h <;> cases h <;> decide
  · intro h
    cases d <;> simp only [letters, List.mem_cons, List.not_mem_nil, or_false] at h
    case device => rcases h with rfl | rfl <;> rfl
    all_goals subst h; rfl

lemma ofName?_eq_some_iff : ofName? name = some d ↔ d.Begins name := by
  simp only [ofName?, Option.bind_eq_some_iff, ofLetter?_eq_some_iff, Begins]
  exact exists_congr fun c => and_comm

lemma ofName?_eq_none_iff : ofName? name = none ↔ ∀ d : Domain, ¬ d.Begins name := by
  simp only [Option.eq_none_iff_forall_not_mem, Option.mem_def, ofName?_eq_some_iff]

lemma ofDatum_text_eq_ok_iff : ofDatum (.text name) = .ok d ↔ d.Begins name := by
  rw [← ofName?_eq_some_iff, ofDatum]
  cases ofName? name <;> simp

lemma ofDatum_of_unknown (h : ∀ d : Domain, ¬ d.Begins name) :
    ofDatum (.text name) =
      .error (invalid s!"Attribute '{name}' does not belong to a known domain"
        [("attribute", .datum (.text name))]) := by
  rw [ofDatum, ofName?_eq_none_iff.mpr h]

/-- A name is one of a single domain. -/
lemma Begins.unique (h : d.Begins name) (h' : d'.Begins name) : d = d' :=
  Option.some.inj ((ofName?_eq_some_iff.mpr h).symm.trans (ofName?_eq_some_iff.mpr h'))

lemma Begins.ne_reference (h : d.Begins name) : d ≠ reference := by
  rintro rfl
  obtain ⟨c, hc, -⟩ := h
  cases hc

lemma Begins.ne_referenceName (h : d.Begins name) : name ≠ referenceName := by
  rintro rfl
  have hnone : ofName? referenceName = none := by decide +kernel
  exact ofName?_eq_none_iff.mp hnone d h

/-! ### What names say -/

/-- A name starts with a letter. -/
def StartsWith (letter : Char) (name : String) : Prop := ∃ rest, name.toList = letter :: rest

/-- **The names of which the attributes of a domain consist.** -/
def Named (names : List String) : Domain → Prop
  | reference => names = ["condition"]
  | device => names ≠ [] ∧ ∀ name ∈ names, StartsWith 'D' name ∨ StartsWith 'P' name
  | toolchain => names ≠ [] ∧ ∀ name ∈ names, StartsWith 'T' name
  | component => names ≠ [] ∧ ∀ name ∈ names, StartsWith 'C' name
  | other _ => False

instance (letter : Char) (name : String) : Decidable (StartsWith letter name) :=
  decidable_of_iff (name.toList.head? = some letter) List.head?_eq_some_iff

instance (names : List String) : (d : Domain) → Decidable (Named names d)
  | reference => inferInstanceAs (Decidable (names = ["condition"]))
  | device => inferInstanceAs (Decidable (names ≠ [] ∧ ∀ name ∈ names, _ ∨ _))
  | toolchain => inferInstanceAs (Decidable (names ≠ [] ∧ ∀ name ∈ names, StartsWith 'T' name))
  | component => inferInstanceAs (Decidable (names ≠ [] ∧ ∀ name ∈ names, StartsWith 'C' name))
  | other _ => inferInstanceAs (Decidable False)

/-- **Why names are refused**, and what is reported. -/
inductive Refused (names : List String) : Fault → Prop where
  /-- there are none -/
  | empty (h : names = []) : Refused names (invalid "Expression has no attributes" [])
  /-- one makes a reference and others stand beside it: all are reported, in order -/
  | crowded {sorted : List String} (h : "condition" ∈ names) (hlength : names.length ≠ 1)
      (hperm : sorted.Perm names) (hsorted : sorted.Pairwise (· ≤ ·)) :
      Refused names (invalid "A condition reference cannot carry other attributes"
        [("attributes", .datum (.list (sorted.map .text)))])
  /-- one is of no domain: the first such is reported -/
  | unknown {before after : List String} {name : String} (h : "condition" ∉ names)
      (hsplit : names = before ++ name :: after) (hbefore : ∀ n ∈ before, ∃ d : Domain, d.Begins n)
      (hname : ∀ d : Domain, ¬ d.Begins name) :
      Refused names (invalid s!"Attribute '{name}' does not belong to a known domain"
        [("attribute", .datum (.text name))])
  /-- each is of a domain, but not all of the same: the domains are reported, in order -/
  | mixed {d d' : Domain} {texts : List String} (hall : ∀ name ∈ names, ∃ d : Domain, d.Begins name)
      (hd : ∃ name ∈ names, d.Begins name) (hd' : ∃ name ∈ names, d'.Begins name) (hne : d ≠ d')
      (hsorted : texts.Pairwise (· < ·))
      (htexts : ∀ t, t ∈ texts ↔ ∃ d : Domain, d.text = t ∧ ∃ name ∈ names, d.Begins name) :
      Refused names (invalid "Expression mixes attributes from several domains"
        [("domains", .datum (.list (texts.map .text)))])

variable {names : List String} {f : Fault}

lemma begins_iff : d.Begins name ↔ ∃ c ∈ d.letters, StartsWith c name := by
  simp only [Begins, StartsWith, List.head?_eq_some_iff]

/-- Names are those of a domain if they are a single `condition` or if each is one of the domain. -/
lemma named_iff : Named names d ↔
    (d = reference ∧ names = [referenceName]) ∨ names ≠ [] ∧ ∀ name ∈ names, d.Begins name := by
  have hnone (hd : d.letters = []) : ¬ (names ≠ [] ∧ ∀ name ∈ names, d.Begins name) := by
    rintro ⟨hne, hall⟩
    obtain ⟨name, hname⟩ := List.exists_mem_of_ne_nil names hne
    obtain ⟨c, hc, -⟩ := hall name hname
    simp [hd] at hc
  cases d with
  | reference => simp only [Named, referenceName, hnone rfl, true_and, or_false]
  | other name => simp only [Named, hnone rfl, reduceCtorEq, false_and, or_false]
  | _ => simp [Named, begins_iff, letters]

lemma pairwise_textsOf (ds : List Domain) : (textsOf ds).Pairwise (· < ·) := by
  have hall : ([component, device, toolchain].map text).Pairwise (· < ·) := by decide
  exact hall.sublist (List.filter_sublist.map text)

lemma mem_textsOf_iff {ds : List Domain} (hds : ∀ d, d ∈ ds ↔ ∃ name ∈ names, d.Begins name)
    {t : String} :
    t ∈ textsOf ds ↔ ∃ d : Domain, d.text = t ∧ ∃ name ∈ names, d.Begins name := by
  simp only [textsOf, List.mem_map, List.mem_filter, List.contains_iff_mem, hds]
  constructor
  · rintro ⟨d, ⟨-, hoccurs⟩, ht⟩
    exact ⟨d, ht, hoccurs⟩
  · rintro ⟨d, ht, name, hname, hbegins⟩
    exact ⟨d, ⟨mem_of_ofName? (ofName?_eq_some_iff.mpr hbegins), name, hname, hbegins⟩, ht⟩

/-- The texts of the domains that occur are determined by their order. -/
lemma textsOf_eq {ds : List Domain} (hds : ∀ d, d ∈ ds ↔ ∃ name ∈ names, d.Begins name)
    {texts : List String} (hsorted : texts.Pairwise (· < ·))
    (htexts : ∀ t, t ∈ texts ↔ ∃ d : Domain, d.text = t ∧ ∃ name ∈ names, d.Begins name) :
    textsOf ds = texts :=
  (pairwise_textsOf ds).eq_of_mem_iff hsorted fun t => (mem_textsOf_iff hds).trans (htexts t).symm

/-- Of two domains not both are the first one. -/
lemma not_all_of_ne {first : Domain} {rest : List Domain} (hd : d ∈ first :: rest)
    (hd' : d' ∈ first :: rest) (hne : d ≠ d') : ¬ rest.all (· == first) := by
  intro hall
  have heq : ∀ e ∈ first :: rest, e = first := by
    simpa [List.all_eq_true] using hall
  exact hne ((heq d hd).trans (heq d' hd').symm)

/-- Each name is of a domain, or there is a first one that is not. -/
lemma exists_unknown_or_all (names : List String) :
    (∃ before name after, names = before ++ name :: after ∧
      (∀ n ∈ before, ∃ d : Domain, d.Begins n) ∧ ∀ d : Domain, ¬ d.Begins name) ∨
      ∀ name ∈ names, ∃ d : Domain, d.Begins name := by
  have hsome {name : String} (h : ofName? name ≠ none) : ∃ d : Domain, d.Begins name := by
    obtain ⟨d, hd⟩ := Option.ne_none_iff_exists'.mp h
    exact ⟨d, ofName?_eq_some_iff.mp hd⟩
  cases hfind : names.find? fun name => (ofName? name).isNone with
  | some name =>
      obtain ⟨hname, before, after, hsplit, hbefore⟩ := List.find?_eq_some_iff_append.mp hfind
      refine .inl ⟨before, name, after, hsplit, fun n hn => hsome ?_, ?_⟩
      · simpa [Option.isSome_iff_ne_none] using hbefore n hn
      · exact ofName?_eq_none_iff.mp (by simpa using hname)
  | none =>
      refine .inr fun name hname => hsome ?_
      simpa using List.find?_eq_none.mp hfind name hname

/-- **Names are those of a domain or refused.** -/
lemma named_or_refused (names : List String) :
    (∃ d, Named names d) ∨ ∃ f, Refused names f := by
  by_cases hmem : referenceName ∈ names
  · by_cases hlength : names.length = 1
    · obtain ⟨name, rfl⟩ := List.length_eq_one_iff.mp hlength
      obtain rfl := List.mem_singleton.mp hmem
      exact .inl ⟨reference, rfl⟩
    · exact .inr ⟨_, .crowded hmem hlength (List.perm_insertionSort (· ≤ ·) names)
        (List.pairwise_insertionSort (· ≤ ·) names)⟩
  rcases exists_unknown_or_all names with ⟨before, name, after, hsplit, hbefore, hname⟩ | hall
  · exact .inr ⟨_, .unknown hmem hsplit hbefore hname⟩
  cases names with
  | nil => exact .inr ⟨_, .empty rfl⟩
  | cons first rest =>
      obtain ⟨d, hd⟩ := hall first List.mem_cons_self
      by_cases hsame : ∀ name ∈ first :: rest, d.Begins name
      · exact .inl ⟨d, named_iff.mpr (.inr ⟨List.cons_ne_nil _ _, hsame⟩)⟩
      · -- a name of another domain than the first
        obtain ⟨name, hname, hnot⟩ : ∃ name ∈ first :: rest, ¬ d.Begins name := by
          simpa only [not_forall, exists_prop] using hsame
        obtain ⟨d', hd'⟩ := hall name hname
        have hds (d : Domain) : d ∈ (first :: rest).filterMap ofName? ↔
            ∃ name ∈ first :: rest, d.Begins name := by
          simp only [List.mem_filterMap, ofName?_eq_some_iff]
        exact .inr ⟨_, .mixed hall ⟨first, List.mem_cons_self, hd⟩ ⟨name, hname, hd'⟩
          (fun h => hnot (h ▸ hd')) (pairwise_textsOf _) fun t => mem_textsOf_iff hds⟩

/-- Where each name is of a domain, these domains are compared. -/
lemma exists_domains (hall : ∀ name ∈ names, ∃ d : Domain, d.Begins name) :
    ∃ ds, (names.map .text).mapM ofDatum = .ok ds ∧
      ∀ d, d ∈ ds ↔ ∃ name ∈ names, d.Begins name := by
  choose! domain hdomain using hall
  refine ⟨names.map domain, ?_, fun d => ?_⟩
  · rw [List.mapM_map]
    exact mapM_of_ok fun name hname => ofDatum_text_eq_ok_iff.mpr (hdomain name hname)
  · rw [List.mem_map]
    refine exists_congr fun name => and_congr_right fun hname => ?_
    exact ⟨fun h => h ▸ hdomain name hname, fun h => (hdomain name hname).unique h⟩

/-- Whatever names are refused for, they are an invalid definition. -/
lemma Refused.ofKind (h : Refused names f) : f.OfKind .invalidDefinition := by
  cases h <;> exact ⟨_, rfl, rfl⟩

/-! ### Inference -/

section Inference

variable {entries : List (Datum × Datum)} (hnames : (Datum.table entries).names = names.map .text)

include hnames

lemma holds_iff : (Datum.table entries).holds name = .ok (decide (name ∈ names)) := by
  have hfield : (Datum.field? entries name).isSome ↔ name ∈ names := by
    calc (Datum.field? entries name).isSome
        ↔ ∃ key ∈ (Datum.table entries).names, Datum.same key (.text name) := by
          simp [Datum.field?, Datum.names]
      _ ↔ name ∈ names := by simp [hnames, Datum.same]
  simp only [Datum.holds, ← hfield, Bool.decide_eq_true]

lemma infer_single (h : names = [referenceName]) : infer (.table entries) = .ok reference := by
  subst h
  simp only [infer, holds_iff hnames, List.mem_singleton, decide_true, bind, Except.bind, if_true,
    hnames]
  rfl

/-- Where no name makes a reference, the domains of all of them are compared. -/
lemma infer_of_not_mem (h : referenceName ∉ names) :
    infer (.table entries) = (names.map .text).mapM ofDatum >>= fun domains =>
      match domains with
      | [] => .error (invalid "Expression has no attributes" [])
      | d :: rest =>
        if rest.all (· == d) then .ok d
        else .error (invalid "Expression mixes attributes from several domains"
          [("domains", .datum (.list ((textsOf (d :: rest)).map .text)))]) := by
  simp only [infer, holds_iff hnames, h, decide_false, bind, Except.bind, Bool.false_eq_true,
    if_false, hnames]
  rfl

lemma infer_of_named (h : Named names d) : infer (.table entries) = .ok d := by
  rcases named_iff.mp h with ⟨rfl, hsingle⟩ | ⟨hne, hall⟩
  · exact infer_single hnames hsingle
  · have hmem : referenceName ∉ names := fun hmem => (hall _ hmem).ne_referenceName rfl
    have hdomains : (names.map .text).mapM ofDatum = .ok (names.map fun _ => d) := by
      rw [List.mapM_map]
      exact mapM_of_ok fun name hname => ofDatum_text_eq_ok_iff.mpr (hall name hname)
    rw [infer_of_not_mem hnames hmem, hdomains]
    obtain ⟨first, rest, rfl⟩ := List.exists_cons_of_ne_nil hne
    have hsame : (rest.map fun _ => d).all (· == d) := by simp
    exact if_pos hsame

lemma infer_of_refused (h : Refused names f) : infer (.table entries) = .error f := by
  cases h with
  | empty h =>
      subst h
      rw [infer_of_not_mem hnames List.not_mem_nil]
      rfl
  | crowded hmem hlength hperm hsorted =>
      have hmem' : referenceName ∈ names := hmem
      simp only [infer, holds_iff hnames, hmem', decide_true, bind, Except.bind, if_true, hnames,
        List.length_map, hlength, if_false, sortedNames_eq_ok hperm hsorted]
      rfl
  | @unknown before after name hmem hsplit hbefore hname =>
      -- the names before are answered for, so that the first unknown one ends the search
      have hanswered : ∀ y ∈ before.map Datum.text, ∃ d, ofDatum y = .ok d := by
        intro y hy
        obtain ⟨n, hn, rfl⟩ := List.mem_map.mp hy
        exact (hbefore n hn).imp fun d hd => ofDatum_text_eq_ok_iff.mpr hd
      rw [infer_of_not_mem hnames hmem, hsplit, List.map_append, List.map_cons,
        mapM_append_of_error (ofDatum_of_unknown hname) fun y hy => .inl (hanswered y hy)]
      rfl
  | mixed hall hd hd' hne hsorted htexts =>
      have hmem : referenceName ∉ names := fun hmem =>
        (hall _ hmem).elim fun _ hbegins => hbegins.ne_referenceName rfl
      obtain ⟨ds, hdomains, hds⟩ := exists_domains hall
      rw [infer_of_not_mem hnames hmem, hdomains, ← textsOf_eq hds hsorted htexts]
      cases ds with
      | nil => exact absurd ((hds _).mpr hd) List.not_mem_nil
      | cons first rest =>
          exact if_neg (not_all_of_ne ((hds _).mpr hd) ((hds _).mpr hd') hne)

/-- **The domain of names is inferred**, and no other one. -/
lemma infer_eq_ok_iff : infer (.table entries) = .ok d ↔ Named names d := by
  refine ⟨fun h => ?_, infer_of_named hnames⟩
  rcases named_or_refused names with ⟨d', hd'⟩ | ⟨f, hf⟩
  · obtain rfl : d' = d := Except.ok.inj ((infer_of_named hnames hd').symm.trans h)
    exact hd'
  · cases (infer_of_refused hnames hf).symm.trans h

/-- **Names are refused** for what is wrong with them, and for nothing else. -/
lemma infer_eq_error_iff : infer (.table entries) = .error f ↔ Refused names f := by
  refine ⟨fun h => ?_, infer_of_refused hnames⟩
  rcases named_or_refused names with ⟨d, hd⟩ | ⟨f', hf'⟩
  · cases (infer_of_named hnames hd).symm.trans h
  · obtain rfl : f' = f := Except.error.inj ((infer_of_refused hnames hf').symm.trans h)
    exact hf'

end Inference

/-! ### The order of names -/

section Order

variable {names' : List String} (hperm : names'.Perm names)

include hperm

/-- In any order, names are those of the same domain. -/
lemma named_congr : Named names' d ↔ Named names d := by
  have hsingle : names' = [referenceName] ↔ names = [referenceName] := by
    rw [← List.perm_singleton, ← List.perm_singleton]
    exact ⟨hperm.symm.trans, hperm.trans⟩
  have hnil : names' = [] ↔ names = [] := by
    rw [← List.length_eq_zero_iff, ← List.length_eq_zero_iff, hperm.length_eq]
  simp only [named_iff, hsingle, ne_eq, hnil, hperm.mem_iff]

/-- In any order, names are refused for the same, unless it is the first one of no domain. -/
lemma Refused.of_perm (h : Refused names f)
    (hknown : referenceName ∈ names ∨ ∀ name ∈ names, ∃ d : Domain, d.Begins name) :
    Refused names' f := by
  cases h with
  | empty h => exact .empty (List.perm_nil.mp (h ▸ hperm))
  | crowded hmem hlength hsortedPerm hsorted =>
      exact .crowded (hperm.mem_iff.mpr hmem) (hperm.length_eq ▸ hlength)
        (hsortedPerm.trans hperm.symm) hsorted
  | @unknown before after name hmem hsplit hbefore hname =>
      rcases hknown with hmem' | hall
      · exact absurd hmem' hmem
      · obtain ⟨d, hd⟩ := hall name (by simp [hsplit])
        exact absurd hd (hname d)
  | mixed hall hd hd' hne hsorted htexts =>
      simp only [← hperm.mem_iff] at hall hd hd' htexts
      exact .mixed hall hd hd' hne hsorted htexts

end Order

/-- **Domains are inferred from names alone**, in any order. Attributes named by texts have the
domain of their names and are refused as an invalid definition if these are not the names of any.
For another order, which domain it is and whether there is one are the same. So is what is reported,
unless it is the first name of no domain. -/
theorem inferred_from_names {entries : List (Datum × Datum)}
    (hnames : (Datum.table entries).names = names.map .text) :
    (∀ d, infer (.table entries) = .ok d ↔ Named names d) ∧
      ((∀ d, ¬ Named names d) ↔
        ∃ f, infer (.table entries) = .error f ∧ f.OfKind .invalidDefinition ∧ Refused names f) ∧
      ∀ (entries' : List (Datum × Datum)) (names' : List String),
        (Datum.table entries').names = names'.map .text → names'.Perm names →
          (∀ d, infer (.table entries') = .ok d ↔ infer (.table entries) = .ok d) ∧
          (("condition" ∈ names ∨ ∀ name ∈ names, ∃ d : Domain, d.Begins name) →
            infer (.table entries') = infer (.table entries)) := by
  refine ⟨fun d => infer_eq_ok_iff hnames, ⟨fun hnone => ?_, ?_⟩,
    fun entries' names' hnames' hperm => ⟨fun d => ?_, fun hknown => ?_⟩⟩
  · obtain ⟨d, hd⟩ | ⟨f, hf⟩ := named_or_refused names
    · exact absurd hd (hnone d)
    · exact ⟨f, infer_of_refused hnames hf, hf.ofKind, hf⟩
  · rintro ⟨f, hf, -⟩ d hd
    cases hf.symm.trans (infer_of_named hnames hd)
  · rw [infer_eq_ok_iff hnames', infer_eq_ok_iff hnames, named_congr hperm]
  · obtain ⟨d, hd⟩ | ⟨f, hf⟩ := named_or_refused names
    · rw [infer_of_named hnames hd, infer_of_named hnames' ((named_congr hperm).mpr hd)]
    · rw [infer_of_refused hnames hf, infer_of_refused hnames' (hf.of_perm hperm hknown)]

/-- Two prefixes of one domain, and names of two domains in either order. -/
theorem inferred_from_names_sample :
    let processor := [(Datum.text "Dname", Datum.text "STM32F4*"), (.text "Pname", .whole 1)]
    let mixed := [(Datum.text "Tcompiler", Datum.text "GCC"), (.text "Dname", .null)]
    (Datum.table processor).names = ["Dname", "Pname"].map .text ∧
      infer (.table processor) = .ok device ∧
      (Datum.table mixed).names = ["Tcompiler", "Dname"].map .text ∧
      (∃ f, infer (.table mixed) = .error f ∧ f.OfKind .invalidDefinition) ∧
      infer (.table mixed.reverse) = infer (.table mixed) := by
  intro processor mixed
  have hprocessor : (Datum.table processor).names = ["Dname", "Pname"].map .text := rfl
  have hmixed : (Datum.table mixed).names = ["Tcompiler", "Dname"].map .text := rfl
  obtain ⟨hdevice, -, -⟩ := inferred_from_names hprocessor
  obtain ⟨-, hrefused, horder⟩ := inferred_from_names hmixed
  have hnone (d : Domain) : ¬ Named ["Tcompiler", "Dname"] d := by
    cases d with
    | other name => exact id
    | _ => decide +kernel
  obtain ⟨f, hf, hkind, -⟩ := hrefused.mp hnone
  have hknown : ∀ name ∈ ["Tcompiler", "Dname"], ∃ d : Domain, d.Begins name := by
    simp only [List.forall_mem_cons, ← ofName?_eq_some_iff]
    exact ⟨⟨toolchain, by decide +kernel⟩, ⟨device, by decide +kernel⟩, by simp⟩
  refine ⟨hprocessor, (hdevice device).mpr (by decide +kernel), hmixed, ⟨f, hf, hkind⟩, ?_⟩
  exact (horder mixed.reverse ["Dname", "Tcompiler"] rfl (List.Perm.swap _ _ _)).2 (.inr hknown)

end Domain

end Applicability
