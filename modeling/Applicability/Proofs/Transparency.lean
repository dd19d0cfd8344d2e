/-
Transparency: what a pass remembers never shows.

A consumer keeps one pass and puts requests to it: to evaluate an item, to select the items that
apply, to start over, and to turn to another target. Whatever was requested before, an answer is the
one that a new pass for the current target gives.

* `Request`, `Request.serve`: the requests, and what they do to a scene;
* `Request.turn`: the target that is current after a request, by what the consumer asked for;
* `atRest_serve`, `atRest_serveAll`: a request leaves the pass at rest, and so do any number of
  them;
* `evaluate_after_requests`: the answers and the codes of the diagnostics are those of a new pass.
-/
import Applicability.Proofs.Questions

namespace Applicability

/-- What a consumer can ask of a pass. -/
inductive Request where
  | evaluate (i : Option Item)
  | filter (items : List (Option Item))
  | restart
  | retarget (target : Attributes)

namespace Request

/-- A request about items of a pack. -/
def isPlain : Request → Bool
  | evaluate i => i.all Item.isPlain
  | filter items => items.all (·.all Item.isPlain)
  | restart | retarget _ => true

/-- The scene after a request, whatever its answer. -/
def serve (r : Rulebook) (s : Scene) : Request → Scene
  | evaluate i => (r.evaluate i).left s
  | filter items => (r.filterItems items).left s
  | restart => (Run.modifyPass (·.restart)).left s
  | retarget target => (Run.modifyPass (·.retarget target)).left s

/-- The scene after some requests, one after the other. -/
def serveAll (r : Rulebook) (requests : List Request) (s : Scene) : Scene :=
  requests.foldl (serve r) s

/-- The target after a request: only a request for another target changes it. -/
def turn (target : Attributes) : Request → Attributes
  | retarget other => other
  | _ => target

variable {r : Rulebook} {target : Attributes} {journals : Journals} {s : Scene}

/-- A request leaves the pass at rest. -/
lemma atRest_serve (hg : r.graph.isPlain) {q : Request} (hq : q.isPlain)
    (hs : r.AtRest target journals s) : r.AtRest (q.turn target) journals (q.serve r s) := by
  cases q with
  | evaluate i => exact (Rulebook.evaluate_gives hg hq s hs).2
  | filter items => exact (Rulebook.filterItems_gives hg (List.all_eq_true.mp hq) s hs).2
  | restart =>
      refine ⟨Rulebook.sound_start _, hs.target, hs.journals, rfl, rfl⟩
  | retarget other => exact ⟨Rulebook.sound_start other, rfl, hs.journals, rfl, rfl⟩

/-- Any number of requests leave the pass at rest. -/
lemma atRest_serveAll (hg : r.graph.isPlain) {requests : List Request}
    (hq : ∀ q ∈ requests, q.isPlain) (hs : r.AtRest target journals s) :
    r.AtRest (requests.foldl turn target) journals (serveAll r requests s) := by
  induction requests generalizing target s with
  | nil => exact hs
  | cons q rest ih =>
      exact ih (fun q' hq' => hq q' (by simp [hq'])) (atRest_serve hg (hq q (by simp)) hs)

end Request

namespace Rulebook

open Request

/-- **What a pass remembers never shows.** After any requests about the items of a pack, an
evaluation has the answer that it has in a new pass for the target that is current by then, and it
notes diagnostics with the same codes; and the same items are selected. -/
theorem evaluate_after_requests (r : Rulebook) (hg : r.graph.isPlain) (target : Attributes)
    (journals : Journals) (requests : List Request) (hq : ∀ q ∈ requests, q.isPlain) :
    let s := serveAll r requests (fresh target journals)
    let new := fresh (requests.foldl turn target) journals
    (∀ i : Option Item, i.all Item.isPlain →
      (r.evaluate i).answer s = (r.evaluate i).answer new ∧
      ∃ noted, ((r.evaluate i).left s).pass.diagnostics = s.pass.diagnostics ++ noted ∧
        noted.map Diagnostic.code =
          ((r.evaluate i).left new).pass.diagnostics.map Diagnostic.code) ∧
    ∀ items : List (Option Item), (∀ i ∈ items, i.all Item.isPlain) →
      (r.filterItems items).answer s = (r.filterItems items).answer new := by
  intro s new
  have hs : r.AtRest (requests.foldl turn target) journals s := atRest_serveAll hg hq atRest_fresh
  have hnew : r.AtRest (requests.foldl turn target) journals new := atRest_fresh
  refine ⟨fun i hi => ?_, fun items hi => ?_⟩
  · obtain ⟨hanswer, -, noted, hnoted, hcodes⟩ := evaluate_spec hg hi hs
    obtain ⟨hanswer', -, noted', hnoted', hcodes'⟩ := evaluate_spec hg hi hnew
    refine ⟨hanswer.trans hanswer'.symm, noted, hnoted, ?_⟩
    have hempty : new.pass.diagnostics = [] := rfl
    rw [hnoted', hempty, List.nil_append, hcodes, hcodes']
  · exact (filterItems_gives hg hi s hs).1.trans (filterItems_gives hg hi new hnew).1.symm

/-- With six levels the top condition of the sample has a verdict, and an artifact that it guards is
too deep. It is so too when the verdict on the condition is on record, for another target or for the
same one. -/
theorem evaluate_after_requests_sample :
    let r : Rulebook := ⟨Graph.sample, Matcher.wildcard true, 6⟩
    let requests : List Request := [.evaluate (some (.condition ⟨3⟩)),
      .retarget (Attributes.ofList [("core", "M0")]), .filter [some (.condition ⟨2⟩), none],
      .evaluate (some (.artifact ⟨1⟩)), .evaluate (some (.condition ⟨3⟩))]
    r.graph.isPlain ∧ (∀ q ∈ requests, q.isPlain) ∧
      (r.evaluate (some (.artifact ⟨0⟩))).answer
        (serveAll r requests (fresh (Attributes.ofList [("core", "M4")]) {})) = .ok .error := by
  intro r requests
  have hq : ∀ q ∈ requests, q.isPlain := by decide
  have h := evaluate_after_requests r Graph.isPlain_sample (Attributes.ofList [("core", "M4")]) {}
    requests hq
  refine ⟨Graph.isPlain_sample, hq, (h.1 (some (.artifact ⟨0⟩)) rfl).1.trans ?_⟩
  exact (evaluate_spec (r := r) (i := some (.artifact ⟨0⟩)) Graph.isPlain_sample rfl
    atRest_fresh).1.trans rfl

end Rulebook

end Applicability
