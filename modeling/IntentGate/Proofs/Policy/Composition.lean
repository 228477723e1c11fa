import IntentGate.Policy.Rule

/-!
# Composition of policies

Consulting rules in order stops at the first one that holds or fails. A failure stops the walk like
a match does, yet decides nothing, so what a list of rules comes to is one of three `Walk`s. Under
concatenation the front part settles the evaluation or leaves all of it to the rest
(`firstMatch_append`, `consulted_append`), and from that follow evaluation over `Policy.merge` and
over policies merged in any `Grouping`.
-/

namespace IntentGate

variable {σ : Type}

/-- Whether a rule decided or failed. -/
def Evaluation.settled (e : Evaluation σ) : Bool :=
  e.matched.isSome || e.failure.isSome

namespace Policy

/-- How consulting rules in order ends: the rules that are consulted, and what it comes to. -/
inductive Walk (s : σ) (rules : List (Rule σ)) : List (Rule σ) → Evaluation σ → Prop
  | undecided (hall : ∀ r ∈ rules, r.test s = .ok false) : Walk s rules rules .undecided
  | decided {before after : List (Rule σ)} {r : Rule σ} (hsplit : rules = before ++ r :: after)
      (hbefore : ∀ q ∈ before, q.test s = .ok false) (hr : r.test s = .ok true) :
      Walk s rules (before ++ [r]) (.decided r)
  | failed {before after : List (Rule σ)} {r : Rule σ} {fault : RuleFault}
      (hsplit : rules = before ++ r :: after) (hbefore : ∀ q ∈ before, q.test s = .ok false)
      (hr : r.test s = .error fault) : Walk s rules (before ++ [r]) (.failed r fault)

/-! ## One rule after another -/

section Rules

variable {s : σ} {r : Rule σ} {rest : List (Rule σ)}

theorem firstMatch_cons_pass (h : r.test s = .ok false) :
    firstMatch (r :: rest) s = firstMatch rest s := by
  simp [firstMatch, firstMatchM, h]

theorem firstMatch_cons_holds (h : r.test s = .ok true) :
    firstMatch (r :: rest) s = .decided r := by
  simp [firstMatch, firstMatchM, h]

theorem firstMatch_cons_fails {fault : RuleFault} (h : r.test s = .error fault) :
    firstMatch (r :: rest) s = .failed r fault := by
  simp [firstMatch, firstMatchM, h]

/-- A rule that holds or fails settles the evaluation, whatever comes behind it. -/
theorem firstMatch_cons_stop (h : r.test s ≠ .ok false) (rest rest' : List (Rule σ)) :
    firstMatch (r :: rest) s = firstMatch (r :: rest') s ∧
      (firstMatch (r :: rest) s).settled = true := by
  cases hr : r.test s with
  | error fault =>
    rw [firstMatch_cons_fails hr, firstMatch_cons_fails hr]
    exact ⟨rfl, rfl⟩
  | ok holds =>
    cases holds with
    | false => exact absurd hr h
    | true =>
      rw [firstMatch_cons_holds hr, firstMatch_cons_holds hr]
      exact ⟨rfl, rfl⟩

/-- Consults a rule and notes it behind those consulted before. -/
def noting (s : σ) (r : Rule σ) : StateM (List (Rule σ)) (Except RuleFault Bool) :=
  fun seen => (r.test s, seen ++ [r])

theorem firstMatchM_noting_pass (h : r.test s = .ok false) (seen : List (Rule σ)) :
    firstMatchM (noting s) (r :: rest) seen = firstMatchM (noting s) rest (seen ++ [r]) := by
  simp only [firstMatchM, noting, bind, StateT.bind, h]

theorem firstMatchM_noting_stop (h : r.test s ≠ .ok false) (seen : List (Rule σ)) :
    (firstMatchM (noting s) (r :: rest) seen).2 = seen ++ [r] := by
  simp only [firstMatchM, noting, bind, StateT.bind]
  cases hr : r.test s with
  | error fault => rfl
  | ok holds =>
    cases holds with
    | false => exact absurd hr h
    | true => rfl

/-- What has been noted before stays in front. -/
theorem noted_eq_append (s : σ) (rules seen : List (Rule σ)) :
    (firstMatchM (noting s) rules seen).2 = seen ++ consulted rules s := by
  induction rules generalizing seen with
  | nil => exact (List.append_nil seen).symm
  | cons r rest ih =>
    by_cases h : r.test s = .ok false
    · have hone : consulted (r :: rest) s = [r] ++ consulted rest s := by
        rw [← ih [r]]
        exact congrArg Prod.snd (firstMatchM_noting_pass h [])
      rw [firstMatchM_noting_pass h, ih, hone, List.append_assoc]
    · have hone : consulted (r :: rest) s = [r] := firstMatchM_noting_stop h []
      rw [firstMatchM_noting_stop h, hone]

theorem consulted_cons_pass (h : r.test s = .ok false) :
    consulted (r :: rest) s = r :: consulted rest s := by
  have hnoted : consulted (r :: rest) s = (firstMatchM (noting s) rest ([] ++ [r])).2 :=
    congrArg Prod.snd (firstMatchM_noting_pass h [])
  exact hnoted.trans (noted_eq_append s rest [r])

/-- A rule that holds or fails is the last one consulted. -/
theorem consulted_cons_stop (h : r.test s ≠ .ok false) : consulted (r :: rest) s = [r] :=
  firstMatchM_noting_stop h []

end Rules

/-- Every evaluation is a walk: the rules up to the one that holds or fails are consulted, each once
and in order, and no other. -/
theorem walk_consulted (rules : List (Rule σ)) (s : σ) :
    Walk s rules (consulted rules s) (firstMatch rules s) := by
  induction rules with
  | nil => exact .undecided (by simp)
  | cons r rest ih =>
    cases hr : r.test s with
    | error fault =>
      rw [firstMatch_cons_fails hr, consulted_cons_stop (by simp [hr])]
      exact .failed (List.nil_append _).symm (by simp) hr
    | ok holds =>
      cases holds with
      | true =>
        rw [firstMatch_cons_holds hr, consulted_cons_stop (by simp [hr])]
        exact .decided (List.nil_append _).symm (by simp) hr
      | false =>
        rw [firstMatch_cons_pass hr, consulted_cons_pass hr]
        have hcons {before : List (Rule σ)} (h : ∀ q ∈ before, q.test s = .ok false) :
            ∀ q ∈ r :: before, q.test s = .ok false := List.forall_mem_cons.2 ⟨hr, h⟩
        generalize consulted rest s = seen, firstMatch rest s = e at ih
        cases ih with
        | undecided hall => exact .undecided (hcons hall)
        | decided hsplit hbefore hr' =>
          exact .decided (by rw [hsplit]; rfl) (hcons hbefore) hr'
        | failed hsplit hbefore hr' =>
          exact .failed (by rw [hsplit]; rfl) (hcons hbefore) hr'

/-! ## Rules behind rules -/

/-- The front part settles the evaluation or leaves it to the rest. -/
theorem firstMatch_append (front rest : List (Rule σ)) (s : σ) :
    firstMatch (front ++ rest) s =
      if (firstMatch front s).settled then firstMatch front s else firstMatch rest s := by
  induction front with
  | nil => rfl
  | cons r front ih =>
    rw [List.cons_append]
    by_cases h : r.test s = .ok false
    · rw [firstMatch_cons_pass h, firstMatch_cons_pass h, ih]
    · obtain ⟨hfront, hsettled⟩ := firstMatch_cons_stop h front (front ++ rest)
      rw [if_pos hsettled, hfront]

/-- Once the front part has settled the evaluation, nothing of the rest is consulted. -/
theorem consulted_append (front rest : List (Rule σ)) (s : σ) :
    consulted (front ++ rest) s =
      consulted front s ++ if (firstMatch front s).settled then [] else consulted rest s := by
  induction front with
  | nil => rfl
  | cons r front ih =>
    rw [List.cons_append]
    by_cases h : r.test s = .ok false
    · rw [firstMatch_cons_pass h, consulted_cons_pass h, consulted_cons_pass h, ih]
      rfl
    · obtain ⟨-, hsettled⟩ := firstMatch_cons_stop h front front
      rw [if_pos hsettled, consulted_cons_stop h, consulted_cons_stop h, List.append_nil]

/-- The first policy that is settled on its own settles the merged one. -/
theorem evaluate_merge (ps : List (Policy σ)) (s : σ) :
    (merge ps).evaluate s =
      ((ps.map fun p => p.evaluate s).find? Evaluation.settled).getD .undecided := by
  induction ps with
  | nil => rfl
  | cons p rest ih =>
    have hsplit : (merge (p :: rest)).evaluate s =
        if (p.evaluate s).settled then p.evaluate s else (merge rest).evaluate s :=
      firstMatch_append p.rules (rest.flatMap Policy.rules) s
    rw [hsplit, List.map_cons, List.find?_cons]
    cases hp : (p.evaluate s).settled with
    | true => rfl
    | false => exact ih

/-- A base that fails ends the evaluation: nothing is decided, and no rule behind it is
consulted. -/
theorem evaluate_withBase_of_failure (own : Policy σ) {base : Policy σ} {s : σ}
    (h : (base.evaluate s).failure.isSome) :
    ((own.withBase base).evaluate s).decision = .observe ∧
      ((own.withBase base).evaluate s).matched = none ∧
      consulted (own.withBase base).rules s = consulted base.rules s := by
  have hrules : (own.withBase base).rules = base.rules ++ own.rules := by
    simp [withBase, merge]
  have hsettled : (firstMatch base.rules s).settled = true := by
    rw [Evaluation.settled, show (firstMatch base.rules s).failure.isSome = true from h,
      Bool.or_true]
  have hbase : (own.withBase base).evaluate s = base.evaluate s := by
    rw [evaluate, hrules, firstMatch_append, if_pos hsettled]
    rfl
  have hwalk := walk_consulted base.rules s
  rw [hbase, hrules, consulted_append, if_pos hsettled, List.append_nil]
  rw [evaluate] at h ⊢
  generalize consulted base.rules s = seen, firstMatch base.rules s = e at hwalk h
  cases hwalk with
  | undecided _ => cases h
  | decided _ _ _ => cases h
  | failed _ _ _ => exact ⟨rfl, rfl, rfl⟩

/-! ## Groupings -/

/-- Policies merged in groups, groups of groups and so on. -/
inductive Grouping (σ : Type) where
  | single (p : Policy σ)
  | merged (parts : List (Grouping σ))

namespace Grouping

mutual

/-- The policy that merging group by group yields. -/
def policy : Grouping σ → Policy σ
  | .single p => p
  | .merged parts => merge (policies parts)

/-- The policies of several groups. -/
def policies : List (Grouping σ) → List (Policy σ)
  | [] => []
  | g :: rest => g.policy :: policies rest

end

mutual

/-- The policies that a grouping puts together, from the first to the last. -/
def members : Grouping σ → List (Policy σ)
  | .single p => [p]
  | .merged parts => membersOf parts

/-- The policies that several groups put together. -/
def membersOf : List (Grouping σ) → List (Policy σ)
  | [] => []
  | g :: rest => g.members ++ membersOf rest

end

mutual

/-- Merging group by group puts the same rules in the same order as merging all at once. -/
theorem rules_policy : ∀ g : Grouping σ, g.policy.rules = (merge g.members).rules
  | .single p => by simp [policy, members, merge]
  | .merged parts => rules_policies parts

theorem rules_policies :
    ∀ gs : List (Grouping σ), (merge (policies gs)).rules = (merge (membersOf gs)).rules
  | [] => rfl
  | g :: rest => by
    have hg := rules_policy g
    have hrest := rules_policies rest
    simp only [merge] at hg hrest ⊢
    rw [policies, membersOf, List.flatMap_cons, List.flatMap_append, hg, hrest]

end

theorem policy_eq_merge (g : Grouping σ) : g.policy = merge g.members :=
  congrArg Policy.mk (rules_policy g)

end Grouping

/-- Merged policies evaluate as the first of them that is settled on its own, and to nothing if none
is; a policy with a base is the base merged with it. What is consulted is exactly the rules up to
the one that decides or fails, so behind a failing base nothing is. Grouping does not matter. -/
theorem evaluate_merge_eq_first_settled (ps : List (Policy σ)) (s : σ) :
    ((merge ps).evaluate s =
      ((ps.map fun p => p.evaluate s).find? Evaluation.settled).getD .undecided) ∧
    Walk s (merge ps).rules (consulted (merge ps).rules s) ((merge ps).evaluate s) ∧
    (∀ own base : Policy σ, own.withBase base = merge [base, own] ∧
      ((base.evaluate s).failure.isSome →
        ((own.withBase base).evaluate s).decision = .observe ∧
        ((own.withBase base).evaluate s).matched = none ∧
        consulted (own.withBase base).rules s = consulted base.rules s)) ∧
    ∀ g : Grouping σ, g.members = ps → g.policy.evaluate s = (merge ps).evaluate s := by
  refine ⟨evaluate_merge ps s, walk_consulted (merge ps).rules s, fun own base => ⟨rfl, ?_⟩, ?_⟩
  · exact evaluate_withBase_of_failure own
  · intro g hg
    rw [g.policy_eq_merge, hg]

/-- Behind a base that fails, a rule that always holds decides nothing and is not consulted. -/
theorem evaluate_withBase_unreachable :
    let base : Policy Unit := ⟨[⟨"broken", .block, fun _ => .error (.missingContext "user")⟩]⟩
    let own : Policy Unit := ⟨[.ofPred "open" .allow fun _ => true]⟩
    ((own.withBase base).evaluate ()).decision = .observe ∧
      (consulted (own.withBase base).rules ()).map Rule.name = ["broken"] ∧
      (Grouping.merged [.merged [.single base], .single own]).policy.evaluate () =
        (merge [base, own]).evaluate () := by
  intro base own
  have hlaw := evaluate_merge_eq_first_settled [base, own] ()
  obtain ⟨hdecision, -, hconsulted⟩ := (hlaw.2.2.1 own base).2 rfl
  refine ⟨hdecision, ?_, hlaw.2.2.2 _ rfl⟩
  rw [hconsulted]
  rfl

end Policy

end IntentGate
