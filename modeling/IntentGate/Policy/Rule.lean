import IntentGate.Fault
import IntentGate.Policy.Decision
import IntentGate.Text.Quoted

/-!
# Rules and policies

A `Rule` names a decision and a test on some subject; the test may fail. A `Policy` is a list of
rules. It is evaluated by consulting the rules in order: the first one whose test holds decides, and
the first one whose test fails ends the evaluation with the decision to observe. Policies compose by
putting their rules one after another.
-/

namespace IntentGate

/-- A decision and the test on a subject under which it is taken. -/
structure Rule (σ : Type) where
  name : String
  decision : Decision
  test : σ → Except RuleFault Bool

/-- What evaluating a policy came to. -/
structure Evaluation (σ : Type) where
  decision : Decision
  /-- The rule that decided. -/
  matched : Option (Rule σ) := none
  /-- The rule whose test failed, by name, and the fault. -/
  failure : Option (String × RuleFault) := none

/-- Rules in the order in which they are consulted. -/
structure Policy (σ : Type) where
  rules : List (Rule σ) := []

namespace Rule

variable {σ : Type}

/-- A rule whose test cannot fail. -/
def ofPred (name : String) (decision : Decision) (holds : σ → Bool) : Rule σ :=
  ⟨name, decision, fun s => .ok (holds s)⟩

/-- The same rule on subjects from which its own subject can be read. -/
def comap {τ : Type} (f : τ → σ) (r : Rule σ) : Rule τ :=
  ⟨r.name, r.decision, fun t => r.test (f t)⟩

/-- The structural dump under the name of the kind of rule; the test is left out. -/
def diagnostic (kind : String) (r : Rule σ) : String :=
  kind ++ " \x7b name: " ++ Text.quoted r.name ++ ", decision: " ++ r.decision.name ++ ", .. \x7d"

end Rule

namespace Evaluation

variable {σ : Type}

/-- No rule decided and none failed. -/
def undecided : Evaluation σ := { decision := .observe }

/-- The evaluation that a rule decides. -/
def decided (r : Rule σ) : Evaluation σ := { decision := r.decision, matched := some r }

/-- The evaluation that ends with a failing rule. -/
def failed (r : Rule σ) (fault : RuleFault) : Evaluation σ :=
  { decision := .observe, failure := some (r.name, fault) }

/-- The name of the rule that decided. -/
def matchedName (e : Evaluation σ) : Option String :=
  e.matched.map Rule.name

end Evaluation

namespace Policy

variable {σ : Type}

/-- Consults rules in order, up to and including the first one that holds or fails; `consult` gives
the answer of a rule's test. -/
def firstMatchM {m : Type → Type} [Monad m] (consult : Rule σ → m (Except RuleFault Bool)) :
    List (Rule σ) → m (Evaluation σ)
  | [] => pure .undecided
  | r :: rest => do
    match ← consult r with
    | .ok true => pure (.decided r)
    | .ok false => firstMatchM consult rest
    | .error fault => pure (.failed r fault)

/-- Evaluates rules on a subject. -/
def firstMatch (rules : List (Rule σ)) (subject : σ) : Evaluation σ :=
  Id.run (firstMatchM (fun r => pure (r.test subject)) rules)

/-- The rules that an evaluation consults, in order. -/
def consulted (rules : List (Rule σ)) (subject : σ) : List (Rule σ) :=
  let note (r : Rule σ) : StateM (List (Rule σ)) (Except RuleFault Bool) := fun seen =>
    (r.test subject, seen ++ [r])
  (firstMatchM note rules []).2

/-- The policy without rules. -/
def empty : Policy σ := {}

/-- Evaluates the rules of a policy on a subject. -/
def evaluate (p : Policy σ) (subject : σ) : Evaluation σ :=
  firstMatch p.rules subject

/-- Appends a rule. -/
def addRule (p : Policy σ) (r : Rule σ) : Policy σ :=
  ⟨p.rules ++ [r]⟩

/-- The rules of several policies, one policy after another. -/
def merge (ps : List (Policy σ)) : Policy σ :=
  ⟨ps.flatMap Policy.rules⟩

/-- A policy behind the rules of a base, which are consulted first. -/
def withBase (own base : Policy σ) : Policy σ :=
  merge [base, own]

/-- The same policy on subjects from which its own subject can be read. -/
def comap {τ : Type} (f : τ → σ) (p : Policy σ) : Policy τ :=
  ⟨p.rules.map (Rule.comap f)⟩

/-- The number of rules. -/
def size (p : Policy σ) : Nat :=
  p.rules.length

end Policy

end IntentGate
