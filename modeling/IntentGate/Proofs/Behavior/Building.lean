import IntentGate.Behavior.Builder
import Mathlib.Data.List.Forall2
import Mathlib.Data.List.Induction

/-!
# What a builder builds

A builder is called in any order; `run` performs some calls on a new one. Its three parts are read
off the calls so far (`Follows`): the current actor is the one named last, the fault is there from
the first action without an actor on, and as long as there is no fault the space has one event for
each call that records one. Later calls go on working on a builder with a fault, but none of them
takes the fault away, as an action stays without an actor whatever comes after it
(`orphaned_append`). So a builder builds what was said, or it fails for one reason.
-/

namespace IntentGate.SpaceBuilder

/-- What can be asked of a builder. -/
inductive Call where
  | withActor (name : String)
  | action (name : String) (occurredAt : Instant) (tags : Dict Tag)
  | observe (e : Event)
  | setTag (key : String) (value : Tag)

namespace Call

/-- Performs a call. -/
def perform (b : SpaceBuilder) : Call → SpaceBuilder
  | withActor name => b.withActor name
  | action name occurredAt tags => b.action name occurredAt tags
  | observe e => b.observe e
  | setTag key value => b.setTag key value

/-- The actor that a call names. -/
def actor? : Call → Option String
  | withActor name => some name
  | _ => none

/-- The value that a call gives to a tag of the space. -/
def tag? (key : String) : Call → Option Tag
  | setTag k value => if key = k then some value else none
  | _ => none

/-- The call adds an event to the space. -/
def records : Call → Bool
  | action .. | observe _ => true
  | withActor _ | setTag .. => false

/-- The event that a call adds: a ready one as it is, an action with the current actor. -/
def event? (actor : Option String) : Call → Option Event
  | action name occurredAt tags => actor.map fun actor => ⟨actor, name, occurredAt, tags⟩
  | observe e => some e
  | withActor _ | setTag .. => none

end Call

/-- The builder after some calls. -/
def run (calls : List Call) : SpaceBuilder :=
  calls.foldl Call.perform {}

/-- The actor that was named last. -/
def lastActor (calls : List Call) : Option String :=
  (calls.filterMap Call.actor?).getLast?

/-- The value that was given last to a tag. -/
def lastTag (calls : List Call) (key : String) : Option Tag :=
  (calls.filterMap (Call.tag? key)).getLast?

/-- An action comes before any actor. -/
def Orphaned (calls : List Call) : Prop :=
  ∃ before name occurredAt tags after, calls = before ++ .action name occurredAt tags :: after ∧
    ∀ c ∈ before, c.actor? = none

/-- The events are those that the calls record: one for each call that records one, in their order,
and an action is that of the actor who was named last before it. -/
def Recorded (calls : List Call) (events : List Event) : Prop :=
  List.Forall₂ (fun c e => c.1.event? (lastActor (calls.take c.2)) = some e)
    (calls.zipIdx.filter fun c => c.1.records) events

variable {calls : List Call} {c : Call}

/-! ## One more call -/

theorem getLast?_filterMap_append_singleton {α β : Type} (f : α → Option β) (xs : List α) (x : α) :
    ((xs ++ [x]).filterMap f).getLast? = (f x).or (xs.filterMap f).getLast? := by
  rw [List.filterMap_append, List.getLast?_append]
  cases hx : f x <;> simp [hx]

theorem lastActor_append_singleton :
    lastActor (calls ++ [c]) = c.actor?.or (lastActor calls) :=
  getLast?_filterMap_append_singleton ..

theorem lastTag_append_singleton {key : String} :
    lastTag (calls ++ [c]) key = (c.tag? key).or (lastTag calls key) :=
  getLast?_filterMap_append_singleton ..

theorem lastActor_eq_none_iff : lastActor calls = none ↔ ∀ c ∈ calls, c.actor? = none := by
  rw [lastActor, List.getLast?_eq_none_iff, List.filterMap_eq_nil_iff]

theorem orphaned_append (h : Orphaned calls) (more : List Call) : Orphaned (calls ++ more) := by
  obtain ⟨before, name, occurredAt, tags, after, rfl, hbefore⟩ := h
  exact ⟨before, name, occurredAt, tags, after ++ more, by simp, hbefore⟩

theorem orphaned_append_singleton_iff :
    Orphaned (calls ++ [c]) ↔
      Orphaned calls ∨ lastActor calls = none ∧ ∃ name at' tags, c = .action name at' tags := by
  constructor
  · rintro ⟨before, name, occurredAt, tags, after, heq, hbefore⟩
    rcases List.eq_nil_or_concat after with rfl | ⟨after, last, rfl⟩
    · obtain ⟨rfl, hc⟩ := List.append_inj' heq rfl
      exact .inr ⟨lastActor_eq_none_iff.2 hbefore, _, _, _, List.singleton_inj.1 hc⟩
    · rw [List.concat_eq_append, ← List.cons_append, ← List.append_assoc] at heq
      obtain ⟨rfl, -⟩ := List.append_inj' heq rfl
      exact .inl ⟨before, name, occurredAt, tags, after, rfl, hbefore⟩
  · rintro (h | ⟨hactor, name, occurredAt, tags, rfl⟩)
    · exact orphaned_append h [c]
    · exact ⟨calls, name, occurredAt, tags, [], rfl, lastActor_eq_none_iff.1 hactor⟩

/-- What the calls so far have recorded stays as it is. -/
theorem recorded_append_singleton {events added : List Event} (h : Recorded calls events)
    (hadded : List.Forall₂ (fun c e => c.event? (lastActor calls) = some e)
      ([c].filter Call.records) added) :
    Recorded (calls ++ [c]) (events ++ added) := by
  unfold Recorded
  rw [List.zipIdx_append, List.filter_append]
  refine List.rel_append ?_ ?_
  · have hplaces : ∀ c ∈ calls.zipIdx.filter fun c => c.1.records, c.2 < calls.length :=
      fun c hc => List.snd_lt_of_mem_zipIdx (List.mem_of_mem_filter hc)
    refine ((List.forall₂_and_left _ _).2 ⟨hplaces, h⟩).imp fun c' e hc => ?_
    rw [List.take_append_of_le_length (Nat.le_of_lt hc.1)]
    exact hc.2
  · rw [Nat.zero_add, List.zipIdx_singleton, List.filter_singleton]
    rw [List.filter_singleton] at hadded
    cases hc : c.records with
    | false =>
      rw [hc] at hadded
      cases hadded
      exact .nil
    | true =>
      rw [hc] at hadded
      cases hadded with
      | cons he hnil =>
        cases hnil
        refine .cons ?_ .nil
        rwa [List.take_left]

/-! ## Actions -/

section Action

variable {b : SpaceBuilder} {name : String} {occurredAt : Instant} {tags : Dict Tag}

theorem action_of_fault (h : b.fault.isSome = true) : b.action name occurredAt tags = b :=
  if_pos h

theorem action_of_actor {actor : String} (hfault : b.fault = none) (hactor : b.actor = some actor) :
    b.action name occurredAt tags = b.observe ⟨actor, name, occurredAt, tags⟩ := by
  cases b
  cases hfault
  cases hactor
  rfl

theorem action_of_no_actor (hfault : b.fault = none) (hactor : b.actor = none) :
    b.action name occurredAt tags = { b with fault := some (.missingField "actor") } := by
  rw [action, hfault, hactor]
  rfl

end Action

/-! ## Runs -/

/-- How a builder stands after some calls. -/
structure Follows (b : SpaceBuilder) (calls : List Call) : Prop where
  actor : b.actor = lastActor calls
  no_fault : ¬Orphaned calls → b.fault = none
  fault : Orphaned calls → b.fault = some (.missingField "actor")
  events : ¬Orphaned calls → Recorded calls b.space.events
  tags : ∀ key, b.space.tags.get? key = lastTag calls key
  cached : b.space.cached = none

theorem Follows.new : Follows {} [] := by
  have hnot : ¬Orphaned [] := by
    rintro ⟨before, _, _, _, after, heq, -⟩
    simp at heq
  exact ⟨rfl, fun _ => rfl, fun h => absurd h hnot, fun _ => .nil, fun _ => rfl, rfl⟩

namespace Follows

variable {b b' : SpaceBuilder} (h : Follows b calls)

include h

/-- A call that makes no fault changes each part of the builder on its own. -/
theorem append {added : List Event} (hcall : Orphaned (calls ++ [c]) → Orphaned calls)
    (hfault : b'.fault = b.fault) (hactor : b'.actor = c.actor?.or b.actor)
    (hevents : b'.space.events = b.space.events ++ added)
    (hadded : List.Forall₂ (fun c e => c.event? (lastActor calls) = some e)
      ([c].filter Call.records) added)
    (htags : ∀ key, b'.space.tags.get? key = (c.tag? key).or (b.space.tags.get? key))
    (hcached : b'.space.cached = none) : Follows b' (calls ++ [c]) where
  actor := by rw [hactor, h.actor, lastActor_append_singleton]
  no_fault hnot := by
    rw [hfault]
    exact h.no_fault fun horphan => hnot (orphaned_append horphan [c])
  fault horphan := by
    rw [hfault]
    exact h.fault (hcall horphan)
  events hnot := by
    rw [hevents]
    exact recorded_append_singleton
      (h.events fun horphan => hnot (orphaned_append horphan [c])) hadded
  tags key := by rw [htags, h.tags, lastTag_append_singleton]
  cached := hcached

theorem action (name : String) (occurredAt : Instant) (tags : Dict Tag) :
    Follows (b.action name occurredAt tags) (calls ++ [.action name occurredAt tags]) := by
  have horphaned : Orphaned (calls ++ [.action name occurredAt tags]) ↔
      Orphaned calls ∨ lastActor calls = none := by
    rw [orphaned_append_singleton_iff]
    simp
  by_cases horphan : Orphaned calls
  -- a builder with a fault stays as it is, and is not asked for its events any more
  · have hfault := h.fault horphan
    rw [action_of_fault (by rw [hfault]; rfl)]
    have hstill := horphaned.2 (.inl horphan)
    exact ⟨by rw [lastActor_append_singleton]; exact h.actor, fun hnot => absurd hstill hnot,
      fun _ => hfault, fun hnot => absurd hstill hnot,
      fun key => by rw [lastTag_append_singleton]; exact h.tags key, h.cached⟩
  · have hfault := h.no_fault horphan
    cases hactor : b.actor with
    | some actor =>
      have hlast : lastActor calls = some actor := h.actor ▸ hactor
      have hevent : (Call.action name occurredAt tags).event? (lastActor calls) =
          some ⟨actor, name, occurredAt, tags⟩ := by
        rw [hlast]
        rfl
      rw [action_of_actor hfault hactor]
      refine h.append ?_ rfl rfl rfl (.cons hevent .nil) (fun _ => rfl) rfl
      rw [horphaned, hlast]
      exact fun hor => hor.resolve_right (Option.some_ne_none actor)
    | none =>
      have hlast : lastActor calls = none := h.actor ▸ hactor
      have hnow := horphaned.2 (.inr hlast)
      rw [action_of_no_actor hfault hactor]
      exact ⟨by rw [lastActor_append_singleton]; exact h.actor, fun hnot => absurd hnow hnot,
        fun _ => rfl, fun hnot => absurd hnow hnot,
        fun key => by rw [lastTag_append_singleton]; exact h.tags key, h.cached⟩

/-- Each call leaves the builder as the calls up to it say. -/
theorem perform (c : Call) : Follows (c.perform b) (calls ++ [c]) := by
  have hother (hc : ∀ name occurredAt tags, c ≠ .action name occurredAt tags)
      (horphan : Orphaned (calls ++ [c])) : Orphaned calls := by
    rcases orphaned_append_singleton_iff.1 horphan with horphan | ⟨-, _, _, _, heq⟩
    · exact horphan
    · exact absurd heq (hc _ _ _)
  cases c with
  | withActor name =>
    exact h.append (hother fun _ _ _ => Call.noConfusion) rfl rfl (List.append_nil _).symm .nil
      (fun _ => rfl) h.cached
  | action name occurredAt tags => exact h.action name occurredAt tags
  | observe e =>
    exact h.append (hother fun _ _ _ => Call.noConfusion) rfl rfl rfl (.cons rfl .nil)
      (fun _ => rfl) rfl
  | setTag key value =>
    refine h.append (hother fun _ _ _ => Call.noConfusion) rfl rfl (List.append_nil _).symm .nil
      (fun k => ?_) h.cached
    change (b.space.tags.insert key value).get? k = _
    rw [Dict.get?_insert, Call.tag?]
    split <;> rfl

end Follows

/-- After every sequence of calls the builder is what they say. -/
theorem follows_run (calls : List Call) : Follows (run calls) calls := by
  induction calls using List.reverseRecOn with
  | nil => exact Follows.new
  | append_singleton calls c ih =>
    rw [run, List.foldl_append]
    exact ih.perform c

theorem build_of_fault {b : SpaceBuilder} {fault : ConfigurationFault} (h : b.fault = some fault) :
    b.build = .error fault := by
  rw [build, h]

theorem build_of_no_fault {b : SpaceBuilder} (h : b.fault = none) : b.build = .ok b.space := by
  rw [build, h]

/-- A builder fails exactly if an action comes before any actor, and then for the missing actor,
whatever comes after. Else it builds a space with the events that the calls record, in their order,
each action with the actor named last before it, with the last value given to each tag, and with an
empty slot. -/
theorem builds_what_was_said (calls : List Call) :
    ((∃ fault, (run calls).build = .error fault) ↔ Orphaned calls) ∧
    (Orphaned calls → ∀ more, (run (calls ++ more)).build = .error (.missingField "actor")) ∧
    (¬Orphaned calls → ∃ s, (run calls).build = .ok s ∧ Recorded calls s.events ∧
      (∀ key, s.tags.get? key = lastTag calls key) ∧ s.cached = none) := by
  have hfails {calls : List Call} (horphan : Orphaned calls) :
      (run calls).build = .error (.missingField "actor") :=
    build_of_fault ((follows_run calls).fault horphan)
  have hfollows := follows_run calls
  refine ⟨⟨?_, fun horphan => ⟨_, hfails horphan⟩⟩,
    fun horphan more => hfails (orphaned_append horphan more), fun hnot => ?_⟩
  · rintro ⟨fault, hfault⟩
    by_contra hnot
    rw [build_of_no_fault (hfollows.no_fault hnot)] at hfault
    cases hfault
  · exact ⟨_, build_of_no_fault (hfollows.no_fault hnot), hfollows.events hnot, hfollows.tags,
      hfollows.cached⟩

/-- A ready event before the first actor is no reason to fail and does not make its actor the current
one; an action there is one, though an actor comes later. -/
theorem builds_what_was_said_of_two_actors :
    let crawl : Event := ⟨"bot", "crawl", default, .empty⟩
    let amount : Dict Tag := Dict.empty.insert "amount" (.flag true)
    let calls : List Call := [.setTag "tenant" (.text "acme"), .observe crawl, .withActor "user",
      .action "login" default .empty, .setTag "tenant" (.text "other"), .withActor "system",
      .action "lock" default amount]
    let orphans : List Call := [.observe crawl, .action "login" default .empty, .withActor "user"]
    (¬Orphaned calls ∧
      Recorded calls [crawl, ⟨"user", "login", default, .empty⟩, ⟨"system", "lock", default, amount⟩] ∧
      lastTag calls "tenant" = some (.text "other") ∧
      ∃ s, (run calls).build = .ok s ∧ s.tags.get? "tenant" = some (.text "other")) ∧
    Orphaned orphans ∧ (run (orphans ++ calls)).build = .error (.missingField "actor") := by
  intro crawl amount calls orphans
  have hnot : ¬Orphaned calls := by
    intro horphan
    obtain ⟨fault, hfault⟩ := (builds_what_was_said calls).1.2 horphan
    cases hfault
  have horphan : Orphaned orphans := by
    refine ⟨[.observe crawl], "login", default, .empty, [.withActor "user"], rfl, ?_⟩
    exact List.forall_mem_singleton.2 rfl
  obtain ⟨s, hs, hevents, htags, -⟩ := (builds_what_was_said calls).2.2 hnot
  refine ⟨⟨hnot, ?_, rfl, s, hs, htags "tenant"⟩, horphan,
    (builds_what_was_said orphans).2.1 horphan calls⟩
  obtain rfl := Except.ok.inj hs
  exact hevents

end IntentGate.SpaceBuilder
