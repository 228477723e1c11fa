import IntentGate.Inference.Remembered
import IntentGate.Inference.Similar
import IntentGate.Inference.Provider
import IntentGate.Proofs.Behavior.CanonicalText
import IntentGate.Proofs.Expiring.Entries
import IntentGate.Proofs.Inference.Running

/-!
# Transparency of memories

A `Memory` stands before a model whose results are those of a function on vectors (`AnswersBy`). All
that one inference can do to the store, and the result it then gives, is listed once, in `Recalls`.
What is kept stays the answer for a vector of the run with that cache key (`Faithful`), so as long
as cache keys tell the vectors of a run apart, a hit gives what the model would have given, and the
run as a whole gives the answers that it would give without the memory.

Nothing is assumed of the clock: a reading decides whether an entry is used, never which one.
-/

namespace IntentGate

open InferM Session

theorem Model.intentStore_evict (number : Nat) (s : Session) :
    (evict number s).2.intentStore number =
      ((s.intentStore number).evict (now s).1).2 := by
  change (onIntents number (fun kept => kept.evict (now s).1) (now s).2).2.intentStore number = _
  rw [intentStore_onIntents, intentStore_now]

/-- A model with a store before it: the number of the store, the lifetime of its entries, and the
model that is asked where there is no live entry. -/
structure Memory where
  number : Nat
  lifetime : Option Nat
  inner : Model

namespace Memory

/-- The inferences and the other calls that a memory takes. -/
inductive Request where
  | infer (space : Space) (given : Option BehaviorVector)
  | forget
  | evict

/-- The vector that a request is about. -/
def Request.vector? : Request → Option BehaviorVector
  | .infer space given => some (given.getD space.vector)
  | .forget | .evict => none

/-- The vectors that some requests are about. -/
def vectors (rs : List Request) : List BehaviorVector :=
  rs.filterMap Request.vector?

theorem vectors_cons (r : Request) (rs : List Request) :
    vectors (r :: rs) = r.vector?.toList ++ vectors rs := by
  rw [vectors, List.filterMap_cons]
  cases r.vector? <;> rfl

def model (m : Memory) : Model :=
  Model.remembering m.number m.lifetime m.inner

/-- Serves a request, and gives the result of an inference. -/
def serve (m : Memory) : Request → SessionM (Option (Except InferenceFault Intent))
  | .infer space given => do return some (← (m.model given).onSpace space).1
  | .forget => do
    Model.forget m.number
    return none
  | .evict => do
    discard (Model.evict m.number)
    return none

/-- The session after some requests. -/
def after (m : Memory) (s : Session) (rs : List Request) : Session :=
  rs.foldl (fun s r => (m.serve r s).2) s

/-- The results of the inferences among some requests. -/
def results (m : Memory) (s : Session) : List Request → List (Except InferenceFault Intent)
  | [] => []
  | r :: rs => (m.serve r s).1.toList ++ m.results (m.serve r s).2 rs

/-- For a given vector the inner model gives what a function gives, whatever the space and the
session, and the store is not its own to change. -/
structure AnswersBy (m : Memory) (answer : BehaviorVector → Except InferenceFault Intent) :
    Prop where
  result : ∀ v scene, ((m.inner (some v)).run scene).1 = answer v
  store : ∀ v scene, ((m.inner (some v)).run scene).2.session.intentStore m.number =
    scene.session.intentStore m.number

/-! ## One inference -/

/-- What an inference about a vector can do to a store, and the result that it then gives. -/
inductive Recalls (lifetime : Option Nat) (answer : BehaviorVector → Except InferenceFault Intent)
    (v : BehaviorVector) (kept : Expiring Intent) :
    Except InferenceFault Intent → Expiring Intent → Prop where
  /-- A live entry is the result. -/
  | hit {now : Nat} {i : Intent} (hfound : (kept.lookup now v.cacheKey).1 = some i) :
      Recalls lifetime answer v kept (.ok i) (kept.lookup now v.cacheKey).2
  /-- The inner model fails, and nothing is stored. -/
  | fault {now : Nat} {e : InferenceFault} (hmissing : (kept.lookup now v.cacheKey).1 = none)
      (hanswer : answer v = .error e) :
      Recalls lifetime answer v kept (.error e) (kept.lookup now v.cacheKey).2
  /-- What the inner model infers is stored. -/
  | learn {now later : Nat} {i : Intent} (hmissing : (kept.lookup now v.cacheKey).1 = none)
      (hanswer : answer v = .ok i) :
      Recalls lifetime answer v kept (.ok i)
        ((kept.lookup now v.cacheKey).2.store (Model.retention lifetime) later v.cacheKey i)

variable {m : Memory} {answer : BehaviorVector → Except InferenceFault Intent}

theorem recalls (hinner : m.AnswersBy answer) (given : Option BehaviorVector) (scene : Scene) :
    Recalls m.lifetime answer (given.getD scene.space.vector)
      (scene.session.intentStore m.number) ((m.model given).run scene).1
      (((m.model given).run scene).2.session.intentStore m.number) := by
  unfold model Model.remembering
  simp only [run_bind, Model.run_resolve, run_ofSession, onIntents_fst, intentStore_now,
    Scene.resolved_session]
  generalize given.getD scene.space.vector = v
  generalize (now scene.session).1 = reading
  -- `next` is the scene after the lookup, in which the inner model is asked if it is asked
  generalize hnext : Scene.mk _ (onIntents m.number _ _).2 = next
  have hstore : next.session.intentStore m.number =
      ((scene.session.intentStore m.number).lookup reading v.cacheKey).2 := by
    rw [← hnext, intentStore_onIntents, intentStore_now]
  cases hfound : ((scene.session.intentStore m.number).lookup reading v.cacheKey).1 with
  | some i =>
    simp only [run_pure, hstore]
    exact .hit hfound
  | none =>
    have hresult := hinner.result v next
    have hframe := hinner.store v next
    rw [hstore] at hframe
    rw [run_bind]
    rcases hrun : (m.inner (some v)).run next with ⟨e | i, last⟩ <;> rw [hrun] at hresult hframe
    · simp only [hframe]
      exact .fault hfound hresult.symm
    · simp only [run_bind, run_ofSession, run_pure, intentStore_onIntents, intentStore_now,
        hframe]
      exact .learn hfound hresult.symm

/-! ## What is kept -/

/-- Every entry holds the answer for one of some vectors, under the cache key of that vector. -/
def Faithful (answer : BehaviorVector → Except InferenceFault Intent) (vs : List BehaviorVector)
    (kept : Expiring Intent) : Prop :=
  kept.AllKept fun key i => ∃ v ∈ vs, v.cacheKey = key ∧ answer v = .ok i

section Recalled

variable {lifetime : Option Nat} {v : BehaviorVector} {kept kept' : Expiring Intent}
  {result : Except InferenceFault Intent} (h : Recalls lifetime answer v kept result kept')

include h

theorem Recalls.faithful {vs : List BehaviorVector} (hv : v ∈ vs)
    (hkept : Faithful answer vs kept) : Faithful answer vs kept' := by
  cases h with
  | hit hfound => exact hkept.lookup _ _
  | fault hmissing hanswer => exact hkept.lookup _ _
  | learn hmissing hanswer => exact (hkept.lookup _ _).store _ _ ⟨v, hv, rfl, hanswer⟩

/-- A hit is the answer for the vector, because no other vector has its cache key. -/
theorem Recalls.result_eq {vs : List BehaviorVector} (hvs : BehaviorVector.Distinguished vs)
    (hv : v ∈ vs) (hkept : Faithful answer vs kept) : result = answer v := by
  cases h with
  | hit hfound =>
    obtain ⟨w, hw, hkey, hanswer⟩ := hkept.of_lookup hfound
    rw [← hvs.eq_of_cacheKey hw hv hkey, hanswer]
  | fault hmissing hanswer => exact hanswer.symm
  | learn hmissing hanswer => exact hanswer.symm

/-- A fault leaves nothing under the cache key. -/
theorem Recalls.kept?_of_fault {e : InferenceFault} (he : result = .error e) :
    kept'.kept? v.cacheKey = none := by
  cases h with
  | hit hfound => cases he
  | fault hmissing hanswer => exact Expiring.kept?_of_lookup_eq_none hmissing
  | learn hmissing hanswer => cases he

end Recalled

/-! ## Runs -/

section Runs

variable (hinner : m.AnswersBy answer)

include hinner

/-- An inference recalls the vector of its request. -/
theorem recalls_serve (s : Session) (space : Space) (given : Option BehaviorVector) :
    ∃ result, (m.serve (.infer space given) s).1 = some result ∧
      Recalls m.lifetime answer (given.getD space.vector) (s.intentStore m.number) result
        ((m.serve (.infer space given) s).2.intentStore m.number) :=
  ⟨_, rfl, recalls hinner given ⟨space, s⟩⟩

theorem faithful_serve {vs : List BehaviorVector} {s : Session} {r : Request}
    (hr : r.vector?.toList ⊆ vs) (hkept : Faithful answer vs (s.intentStore m.number)) :
    Faithful answer vs ((m.serve r s).2.intentStore m.number) := by
  cases r with
  | infer space given =>
    obtain ⟨result, -, hrecalls⟩ := recalls_serve hinner s space given
    exact hrecalls.faithful (hr (List.mem_singleton_self _)) hkept
  | forget =>
    change Faithful answer vs ((Model.forget m.number s).2.intentStore m.number)
    rw [Model.forget, intentStore_onIntents]
    exact .empty
  | evict =>
    change Faithful answer vs ((Model.evict m.number s).2.intentStore m.number)
    rw [Model.intentStore_evict]
    exact hkept.evict _

theorem faithful_after {vs : List BehaviorVector} {s : Session} {rs : List Request}
    (hrs : vectors rs ⊆ vs) (hkept : Faithful answer vs (s.intentStore m.number)) :
    Faithful answer vs ((m.after s rs).intentStore m.number) := by
  induction rs generalizing s with
  | nil => exact hkept
  | cons r rs ih =>
    rw [vectors_cons] at hrs
    obtain ⟨hhead, htail⟩ := List.append_subset.1 hrs
    exact ih htail (faithful_serve hinner hhead hkept)

/-- Before a store that is faithful, a memory gives the answers for the vectors of a run. -/
theorem results_eq_map {vs : List BehaviorVector} (hvs : BehaviorVector.Distinguished vs)
    {s : Session} {rs : List Request} (hrs : vectors rs ⊆ vs)
    (hkept : Faithful answer vs (s.intentStore m.number)) :
    m.results s rs = (vectors rs).map answer := by
  induction rs generalizing s with
  | nil => rfl
  | cons r rs ih =>
    rw [vectors_cons] at hrs
    obtain ⟨hhead, htail⟩ := List.append_subset.1 hrs
    have hrest := ih htail (faithful_serve hinner hhead hkept)
    cases r with
    | infer space given =>
      obtain ⟨result, hserve, hrecalls⟩ := recalls_serve hinner s space given
      rw [results, hserve, hrecalls.result_eq hvs (hhead (List.mem_singleton_self _)) hkept, hrest]
      rfl
    | forget => exact hrest
    | evict => exact hrest

end Runs

theorem after_append (m : Memory) (s : Session) (rs rs' : List Request) :
    m.after s (rs ++ rs') = m.after (m.after s rs) rs' :=
  List.foldl_append

/-- In a run that starts with an empty store, every inference gives what the inner model gives for
the vector of its request. At every moment each entry holds such a result, under the cache key of
the vector that it was inferred from, and after a fault there is no entry under the key of its
vector. -/
theorem results_eq_inner (hinner : m.AnswersBy answer) {s : Session}
    (hempty : s.intentStore m.number = .empty) {rs : List Request}
    (hvs : BehaviorVector.Distinguished (vectors rs)) :
    m.results s rs = (vectors rs).map answer ∧
    ∀ done rest, rs = done ++ rest →
      (∀ key k, ((m.after s done).intentStore m.number).kept? key = some k →
        ∃ v ∈ vectors done, v.cacheKey = key ∧ answer v = .ok k.value) ∧
      ∀ earlier space given e, done = earlier ++ [.infer space given] →
        answer (given.getD space.vector) = .error e →
          ((m.after s done).intentStore m.number).kept? (given.getD space.vector).cacheKey =
            none := by
  have hnone (vs : List BehaviorVector) : Faithful answer vs (s.intentStore m.number) := by
    rw [hempty]
    exact .empty
  refine ⟨results_eq_map hinner hvs (List.Subset.refl _) (hnone _), ?_⟩
  -- what has been done so far is a run of its own, about vectors of the whole run
  rintro done rest rfl
  refine ⟨faithful_after hinner (List.Subset.refl _) (hnone _), ?_⟩
  rintro earlier space given e rfl he
  have hsub : vectors earlier ⊆ vectors (earlier ++ [.infer space given] ++ rest) := by
    rw [vectors, vectors, List.append_assoc, List.filterMap_append]
    exact List.subset_append_left _ _
  have hmem : given.getD space.vector ∈ vectors (earlier ++ [.infer space given] ++ rest) :=
    List.mem_filterMap.2 ⟨.infer space given, by simp, rfl⟩
  obtain ⟨result, -, hrecalls⟩ := recalls_serve hinner (m.after s earlier) space given
  have hresult := hrecalls.result_eq hvs hmem (faithful_after hinner hsub (hnone _))
  rw [after_append]
  exact hrecalls.kept?_of_fault (hresult.trans he)

/-! ## Models of similarity -/

section OfSimilarity

variable (provider : Nat) (embed : String → Except ProviderFailure (Embedding Float))

/-- Asking a provider for some keys gives its first failure, and no model's store is touched. -/
theorem embedAll_ofAnswers (keys : List String) (s : Session) :
    (Model.embedAll (.ofAnswers provider embed) keys s).1 =
      (keys.mapM embed).mapError .provider ∧
    ∀ number, (Model.embedAll (.ofAnswers provider embed) keys s).2.intentStore number =
      s.intentStore number := by
  induction keys generalizing s with
  | nil => exact ⟨rfl, fun _ => rfl⟩
  | cons key keys ih =>
    obtain ⟨hrest, hstore⟩ := ih (record (.embed provider key none) s).2
    have hcall : Provider.ofAnswers provider embed key s =
        (embed key, (record (.embed provider key (Provider.failure? (embed key))) s).2) := rfl
    rw [List.mapM_cons]
    cases hanswer : embed key with
    | error failure =>
      rw [hanswer] at hcall
      rw [Model.embedAll_cons_error keys hcall]
      exact ⟨rfl, fun _ => rfl⟩
    | ok e =>
      rw [hanswer] at hcall
      rw [Model.embedAll_cons_ok keys hcall]
      refine ⟨?_, hstore⟩
      rw [Prod.map_fst, Provider.failure?, hrest]
      cases keys.mapM embed <;> rfl

/-- The result of a model of similarity that takes no times. -/
def similarAnswer (similarity : Similarity Float) (calculator : Calculator) (v : BehaviorVector) :
    Except InferenceFault Intent :=
  ((v.dimensions.keys.mapM embed).mapError .provider).map fun es =>
    ⟨Model.similarName, es.map fun e => Signal.make Model.similarSource e.source e.score,
      calculator.ofScore (similarity.scoreWeighted es (some v.dimensions)), none⟩

theorem inferenceScore_of_isTimeAware {similarity : Similarity Float}
    (htimes : similarity.isTimeAware = false) (events : List Event) (values : Dict Float)
    (es : List (Embedding Float)) :
    similarity.inferenceScore events values es =
      pure (similarity.scoreWeighted es (some values)) := by
  have hnone : similarity.timeAwareScore? events es = none := by
    cases similarity <;> first | rfl | cases htimes
  rw [Similarity.inferenceScore, hnone, ite_self]
  rfl

theorem answersBy_ofSimilarity (number : Nat) (lifetime : Option Nat)
    {similarity : Similarity Float} (htimes : similarity.isTimeAware = false)
    (calculator : Calculator) :
    AnswersBy
      ⟨number, lifetime, .ofSimilarity (.ofAnswers provider embed) similarity calculator⟩
      (similarAnswer embed similarity calculator) := by
  have hrun (v : BehaviorVector) (scene : Scene) :
      ((Model.ofSimilarity (.ofAnswers provider embed) similarity calculator (some v)).run
        scene).1 = similarAnswer embed similarity calculator v ∧
      ((Model.ofSimilarity (.ofAnswers provider embed) similarity calculator (some v)).run
        scene).2.session.intentStore number = scene.session.intentStore number := by
    obtain ⟨hresult, hstore⟩ := embedAll_ofAnswers provider embed v.dimensions.keys scene.session
    specialize hstore number
    rw [Model.ofSimilarity, Model.run_ofScoring, similarAnswer, ← hresult]
    dsimp only
    rw [Option.getD_some]
    generalize Model.embedAll (.ofAnswers provider embed) v.dimensions.keys scene.session = asked
      at hstore ⊢
    rcases asked with ⟨e | es, session⟩
    · exact ⟨rfl, hstore⟩
    · refine ⟨?_, hstore⟩
      dsimp only
      rw [inferenceScore_of_isTimeAware htimes]
      rfl
  exact ⟨fun v scene => (hrun v scene).1, fun v scene => (hrun v scene).2⟩

end OfSimilarity

/-- A memory before a model of similarity: the second inference is a hit for a vector that was
given, the third one fails and leaves nothing, and the last one comes after everything was
forgotten. -/
theorem results_of_similarity_run :
    let embed := Embedding.ofTable (Dict.ofList [("u:login", .make "u:login" 0.5)])
    let m : Memory := ⟨0, some 5, .ofSimilarity (.ofAnswers 0 embed) .average .standard⟩
    let s : Session := { clock := fun n => 2 * n }
    let login := Space.empty.observe ⟨"u", "login", default, .empty⟩
    let retry := login.observe ⟨"u", "retry", default, .empty⟩
    let i : Intent := ⟨"AI-Inferred-Intent", [.make "ai" "u:login" 0.5], ⟨0.5, .medium⟩, none⟩
    let e : InferenceFault := .provider ⟨"table", .other, "no entry for u:retry"⟩
    let rs : List Request := [.infer login none, .infer .empty (some login.vector), .evict,
      .infer retry none, .forget, .infer login none]
    m.results s rs = [.ok i, .ok i, .error e, .ok i] ∧
    ((m.after s (rs.take 4)).intentStore 0).kept? retry.vector.cacheKey = none := by
  intro embed m s login retry i e rs
  have hinner : m.AnswersBy (similarAnswer embed .average .standard) :=
    answersBy_ofSimilarity 0 embed 0 (some 5) rfl .standard
  have hvs : BehaviorVector.Distinguished (vectors rs) :=
    ⟨by decide +kernel, by decide +kernel⟩
  obtain ⟨hresults, hmoments⟩ := results_eq_inner hinner (s := s) rfl hvs
  refine ⟨hresults.trans (by decide +kernel), ?_⟩
  exact (hmoments (rs.take 4) (rs.drop 4) rfl).2 (rs.take 3) retry none e rfl (by decide +kernel)

end Memory

end IntentGate
