import IntentGate.Proofs.Behavior.Windows
import IntentGate.Proofs.Inference.Origin

/-!
# Models behind windows

A model behind windows with fixed references (`behind`) infers about the events that lie in all of
them: however many windows there are, they come to a single filter of the space that the outermost
one is asked about (`run_behind_cons`). So it matters neither in which order they stand nor whether
one is repeated, and the model itself is called once (`windows_compose`).

What lies in one such window is said in exact integers in `clamped_window_exact`: neither the clamping
of its start to the first instant nor that of a negative length to zero adds an event or drops one.
-/

namespace IntentGate

namespace Model

/-- A window of some length that ends at a fixed reference. -/
structure View where
  length : Span
  reference : Instant

def View.window (v : View) : Window :=
  Window.endingAt v.reference v.length

/-- A model behind windows with fixed references, the outermost first. -/
def behind (views : List View) (inner : Model) : Model :=
  views.foldr (fun v m => windowed m v.length (some v.reference)) inner

/-- The space that is left of another one behind some windows. -/
def spaceThrough (windows : List Window) (s : Space) : Space :=
  .ofEvents (eventsThrough windows s.events) s.tags

theorem spaceThrough_singleton (w : Window) (s : Space) : spaceThrough [w] s = s.filtered w := by
  have hevents : eventsThrough [w] s.events = (s.filtered w).events :=
    List.filter_congr fun e _ => Bool.and_true _
  exact congrArg (Space.ofEvents · s.tags) hevents

theorem spaceThrough_filtered (w : Window) (windows : List Window) (s : Space) :
    spaceThrough windows (s.filtered w) = spaceThrough (w :: windows) s := by
  have hevents : eventsThrough windows (s.filtered w).events = eventsThrough (w :: windows) s.events :=
    List.filter_filter.trans (List.filter_congr fun e _ => Bool.and_comm _ _)
  exact congrArg (Space.ofEvents · s.tags) hevents

/-- Windows that contain the same instants together leave the same. -/
theorem spaceThrough_congr {windows windows' : List Window} (h : ∀ w, w ∈ windows ↔ w ∈ windows')
    (s : Space) : spaceThrough windows s = spaceThrough windows' s := by
  have hevents : eventsThrough windows s.events = eventsThrough windows' s.events := by
    refine List.filter_congr fun e _ => Bool.eq_iff_iff.2 ?_
    rw [List.all_eq_true, List.all_eq_true]
    exact forall_congr' fun w => imp_congr_left (h w)
  exact congrArg (Space.ofEvents · s.tags) hevents

/-- A stack of windows comes to one filter, whatever is given to the outermost one. -/
theorem run_behind_cons (v : View) (views : List View) (inner : Model)
    (given : Option BehaviorVector) (scene : Scene) :
    (behind (v :: views) inner given).run scene =
      let ran := (inner none).run
        { scene with space := spaceThrough ((v :: views).map View.window) scene.space }
      (ran.1, { scene with session := ran.2.session }) := by
  induction views generalizing v given scene with
  | nil =>
    rw [List.map_singleton, spaceThrough_singleton]
    rfl
  | cons v' views ih =>
    -- the windows behind the first one see what it has left
    have hseen : spaceThrough ((v' :: views).map View.window) (scene.space.filtered v.window) =
        spaceThrough ((v :: v' :: views).map View.window) scene.space :=
      spaceThrough_filtered ..
    change (windowed (behind (v' :: views) inner) v.length (some v.reference) given).run scene = _
    rw [run_windowed, ih, ← hseen]
    rfl

/-- Stacks of the same windows are the same model. -/
theorem behind_congr {views views' : List View} (hne : views ≠ []) (hne' : views' ≠ [])
    (h : ∀ v, v ∈ views ↔ v ∈ views') (inner : Model) : behind views inner = behind views' inner := by
  obtain ⟨v, vs, rfl⟩ := List.exists_cons_of_ne_nil hne
  obtain ⟨v', vs', rfl⟩ := List.exists_cons_of_ne_nil hne'
  have hseen (s : Space) : spaceThrough ((v :: vs).map View.window) s =
      spaceThrough ((v' :: vs').map View.window) s := by
    refine spaceThrough_congr (fun w => ?_) s
    simp only [List.mem_map, h]
  have hrun (given : Option BehaviorVector) (scene : Scene) :
      (behind (v :: vs) inner given).run scene = (behind (v' :: vs') inner given).run scene := by
    rw [run_behind_cons, run_behind_cons, hseen]
  exact funext fun given => funext (hrun given)

/-- A counted model behind windows is called once. -/
theorem run_behind_counted {views : List View} (hne : views ≠ []) (number : Nat) (inner : Model)
    (given : Option BehaviorVector) (scene : Scene) :
    (behind views (counted number inner) given).run scene =
      (behind views inner given).run
        { scene with session := (Session.record (.infer number) scene.session).2 } := by
  obtain ⟨v, views, rfl⟩ := List.exists_cons_of_ne_nil hne
  rw [run_behind_cons, run_behind_cons, counted_eq]
  rfl

theorem probeCalls_record (number : Nat) (s : Session) :
    (Session.record (.infer number) s).2.probeCalls number = s.probeCalls number + 1 :=
  List.countP_cons_of_pos (beq_self_eq_true _)

/-- Behind a stack of windows with fixed references, a model is run once, with no vector, about the
events that lie in all windows, in order of observation and with the tags of the space; the result is
what it comes to, and the session is left as it leaves it. The order of the windows does not matter,
and repeating one anywhere in the stack changes nothing. If the calls of the model are counted, there
is one call more, whether any event is left or not. -/
theorem windows_compose (v : View) (views : List View) (inner : Model)
    (given : Option BehaviorVector) (scene : Scene) :
    let stack := v :: views
    let left := scene.space.events.filter fun e => stack.all fun u => u.window.contains e.occurredAt
    let ran := (inner none).run ⟨.ofEvents left scene.space.tags, scene.session⟩
    (behind stack inner given).run scene = (ran.1, { scene with session := ran.2.session }) ∧
    (∀ stack', stack.Perm stack' → behind stack' inner = behind stack inner) ∧
    (∀ u ∈ stack, ∀ front back, stack = front ++ back →
      behind (front ++ u :: back) inner = behind stack inner) ∧
    ∀ number, (behind stack (counted number inner) given).run scene =
        (behind stack inner given).run
          { scene with session := (Session.record (.infer number) scene.session).2 } ∧
      ((∀ scene, ((inner none).run scene).2.session.probeCalls number =
          scene.session.probeCalls number) →
        ((behind stack (counted number inner) given).run scene).2.session.probeCalls number =
          scene.session.probeCalls number + 1) := by
  intro stack left ran
  have hne : stack ≠ [] := List.cons_ne_nil v views
  have hleft : spaceThrough (stack.map View.window) scene.space = .ofEvents left scene.space.tags := by
    unfold spaceThrough eventsThrough
    simp only [List.all_map]
    rfl
  refine ⟨?_, fun stack' hperm => ?_, fun u hu front back hstack => ?_, fun number => ?_⟩
  · rw [run_behind_cons, hleft]
  · have hne' : stack' ≠ [] := fun h => hne (List.perm_nil.1 (h ▸ hperm))
    exact behind_congr hne' hne (fun w => hperm.mem_iff.symm) inner
  · refine behind_congr (by simp) hne (fun w => ?_) inner
    have hmem : w ∈ front ++ u :: back ↔ w = u ∨ w ∈ stack := by
      rw [hstack]
      simp only [List.mem_append, List.mem_cons]
      tauto
    rw [hmem]
    exact or_iff_right_of_imp fun h => h ▸ hu
  · refine ⟨run_behind_counted hne number inner given scene, fun hinner => ?_⟩
    rw [run_behind_counted hne, run_behind_cons]
    dsimp only
    rw [hinner]
    exact probeCalls_record number scene.session

theorem session_ofRules (rules : List IntentRule) (calculator : Calculator)
    (given : Option BehaviorVector) (scene : Scene) :
    ((ofRules rules calculator given).run scene).2.session = scene.session := by
  obtain ⟨_, _, _, next, hrun, hsession⟩ := @run_ofRulesGraded given rules calculator.ofScore scene
  rw [ofRules, hrun]
  exact hsession

/-- The two windows have no event in common: what is left is a space with its tag and without events,
and the model that looks for both is called once about it. -/
theorem windows_compose_of_disjoint :
    let early : View := ⟨Span.ofSeconds 10, ⟨20, 0, by decide, by decide, by decide⟩⟩
    let late : View := ⟨Span.ofSeconds 10, ⟨40, 0, by decide, by decide, by decide⟩⟩
    let pay : Event := ⟨"u", "pay", ⟨35, 0, by decide, by decide, by decide⟩, .empty⟩
    let login : Event := ⟨"u", "login", ⟨15, 0, by decide, by decide, by decide⟩, .empty⟩
    let space := (Space.ofEvents [pay, login] .empty).setTag "tenant" (.text "acme")
    let inner := ofRules [.ofPattern (.hasTag "tenant") "events=\x7bn\x7d" 0.9] .standard
    behind [late, early] inner = behind [early, late] inner ∧
    behind [early, late, early] inner = behind [early, late] inner ∧
    ((behind [early, late] inner none).run ⟨space, {}⟩).1 =
      .ok ⟨"events=0", [], ⟨0.9, .certain⟩, none⟩ ∧
    ((behind [early, late] (counted 0 inner) none).run ⟨space, {}⟩).2.session.probeCalls 0 = 1 := by
  intro early late pay login space inner
  obtain ⟨hrun, horder, hrepeated, hcalled⟩ := windows_compose early [late] inner none ⟨space, {}⟩
  refine ⟨horder _ (.swap ..), hrepeated early (.head _) [early, late] [] rfl, ?_, ?_⟩
  · rw [hrun]
    decide +kernel
  · exact (hcalled 0).2 fun scene => congrArg (Session.probeCalls · 0) (session_ofRules _ _ none scene)

end Model

/-! ## One window in integers -/

namespace Window

open Instant

theorem start_endingAt_longest (reference : Instant) :
    (endingAt reference Span.longest).start = earliest := by
  have hlongest : @Eq Int Span.longest 9223372036854775807000000 := rfl
  have hearliest : earliest.ticks = -8334601228800000000000 := rfl
  have hsecond := reference.second_le
  have hnano := reference.nano_lt
  rcases start_endingAt reference Span.longest with ⟨-, hstart⟩ | ⟨-, hticks, -⟩
  · exact hstart
  · have hge := ticks_earliest_le (endingAt reference Span.longest).start
    rw [hticks, ticks_eq reference] at hge
    omega

/-- A window that ends at a reference begins not after it, and holds, of the instants outside leap
seconds, those that lie at most its length before the reference, to the nanosecond; it is as long as
asked for, or as all the time there is before the reference. A negative length counts as zero. So all
events of a space lie in the last span before the last of them that is as long as its time span, and
a model behind a window of the longest span is asked about all events that are not after the
reference. -/
theorem clamped_window_exact (reference : Instant) (length : Span) :
    let w := endingAt reference length
    (w.start ≤ w.stop ∧ w.stop = reference) ∧
    (∀ t : Instant, t.inLeapSecond = false →
      (w.contains t = true ↔ t ≤ reference ∧ reference.ticks - t.ticks ≤ max length 0)) ∧
    (reference.inLeapSecond = false →
      w.length = min (max length 0) (reference.ticks - earliest.ticks)) ∧
    (∀ s : Space, s.events ≠ [] → (∀ e ∈ s.events, e.occurredAt.inLeapSecond = false) →
      ∃ span, s.timeSpan? = some span ∧ ∃ last ∈ s.events.map Event.occurredAt,
        (∀ e ∈ s.events, e.occurredAt ≤ last) ∧ s.eventsInLast span last = s.events) ∧
    ∀ (inner : Model) (given : Option BehaviorVector) (scene : Scene),
      (∀ e ∈ scene.space.events, e.occurredAt ≤ reference) →
      (Model.windowed inner Span.longest (some reference) given).run scene =
        (InferM.about (.ofEvents scene.space.events scene.space.tags) (inner none)).run scene := by
  intro w
  refine ⟨⟨start_endingAt_le reference length, rfl⟩, fun t ht => contains_endingAt_iff length ht,
    length_endingAt length, fun s hs hleap => Space.eventsInLast_timeSpan hs hleap,
    fun inner given scene hbefore => ?_⟩
  have hall : scene.space.filtered (endingAt reference Span.longest) =
      .ofEvents scene.space.events scene.space.tags := by
    refine congrArg (Space.ofEvents · scene.space.tags) (List.filter_eq_self.2 fun e he => ?_)
    rw [contains_iff, start_endingAt_longest]
    exact ⟨earliest_le _, hbefore e he⟩
  rw [Model.run_windowed]
  change _ = (((inner none).run
    { scene with space := .ofEvents scene.space.events scene.space.tags }).1, _)
  rw [← hall]
  rfl

/-- Five seconds after the first instant: a window of the longest span is clamped and holds the first
instant, one of a negative length does not, and the two events, observed in reverse, lie in the last
span that is as long as their time span. -/
theorem clamped_window_exact_near_earliest :
    let fifth : Instant := ⟨-8334601228795, 0, by decide, by decide, by decide⟩
    let space : Space :=
      .ofEvents [⟨"u", "pay", fifth, .empty⟩, ⟨"u", "login", earliest, .empty⟩] .empty
    let inner := Model.ofRules [] .standard
    (endingAt fifth Span.longest).contains earliest = true ∧
    (endingAt fifth Span.longest).length = Span.ofSeconds 5 ∧
    (endingAt fifth (-1)).contains earliest = false ∧
    (∃ span, space.timeSpan? = some span ∧ ∃ last ∈ space.events.map Event.occurredAt,
      (∀ e ∈ space.events, e.occurredAt ≤ last) ∧ space.eventsInLast span last = space.events) ∧
    (Model.windowed inner Span.longest (some fifth) none).run ⟨space, {}⟩ =
      (InferM.about space (inner none)).run ⟨space, {}⟩ := by
  intro fifth space inner
  obtain ⟨-, hlongest, hlength, hspan, hseen⟩ := clamped_window_exact fifth Span.longest
  obtain ⟨-, hnegative, -⟩ := clamped_window_exact fifth (-1)
  refine ⟨(hlongest earliest rfl).2 (by decide), hlength rfl, ?_, hspan space nofun (by decide),
    hseen inner none ⟨space, {}⟩ (by decide)⟩
  rw [Bool.eq_false_iff]
  exact fun h => absurd ((hnegative earliest rfl).1 h) (by decide)

end Window

end IntentGate
