import IntentGate.Inference.Provider
import IntentGate.Proofs.Expiring.Entries
import IntentGate.Proofs.Inference.Running
import Mathlib.Data.List.Basic

/-!
# When a provider that remembers asks

A `Provider.Memory` stands before a provider whose answers may be others each time it is asked: they
may depend on all of the session, in which time goes on with every request. To say when it asks, the
calls of the inner provider are noted (`noting`). A request, as it is `Served`, has the calls that
were made for it next to its answer, and by `remembering_eq_noted` the notes change nothing else.
All that one request can do is listed once, in `Recalls`.

`answers_come_from_calls` says of every run what is given and when the inner provider is asked. What
is given has been given by the inner provider for the same key, because this is so of whatever is
kept. A failure is that of a call made for the request, and nothing is kept after it. How often the
inner provider is asked depends on the clock: until the first success if entries do not expire, and
each time if they have no time to live.
-/

namespace IntentGate

open Session

/-- From now on until the one numbered `last`, readings do not decrease, and the clock can represent
them. -/
def Session.Steady (s : Session) (last : Nat) : Prop :=
  ∀ i j, s.readings ≤ i → i ≤ j → j < last → s.clock i ≤ s.clock j ∧ s.clock j < clockHorizon

namespace Provider

/-- What a provider gives for a key. -/
abbrev Answer := Except ProviderFailure (Embedding Float)

/-- A call of a provider and what it gave. -/
structure Exchange where
  key : String
  answer : Answer
deriving DecidableEq

/-- Actions on a session that note the calls of a provider, in order. -/
abbrev NotingM := StateT (List Exchange) SessionM

/-- The provider, with a note of each call. -/
def noting (inner : Provider) (key : String) : NotingM Answer := do
  let answer ← inner key
  modify (· ++ [⟨key, answer⟩])
  return answer

/-- `remembering`, before an inner provider that may do more than act on the session. -/
def rememberingIn {m : Type → Type} [Monad m] [MonadLiftT SessionM m] (number : Nat)
    (lifetime : Option Nat) (inner : String → m Answer) (key : String) : m Answer := do
  let now ← liftM Session.now
  match ← liftM (Session.onEmbeddings number fun s => s.lookup now key) with
  | some e => return .ok e
  | none =>
    match ← inner key with
    | .error failure => return .error failure
    | .ok e =>
      let now ← liftM Session.now
      liftM (Session.onEmbeddings number fun s => ((), s.store (retention lifetime) now key e))
      return .ok e

theorem rememberingIn_session (number : Nat) (lifetime : Option Nat) (inner : Provider) :
    rememberingIn number lifetime inner = remembering number lifetime inner :=
  rfl

namespace NotingM

variable {α β : Type}

theorem bind_apply (x : NotingM α) (f : α → NotingM β) (calls : List Exchange) (s : Session) :
    (x >>= f) calls s = f (x calls s).1.1 (x calls s).1.2 (x calls s).2 :=
  rfl

theorem lift_apply (x : SessionM α) (calls : List Exchange) (s : Session) :
    (liftM x : NotingM α) calls s = (((x s).1, calls), (x s).2) :=
  rfl

theorem noting_apply (inner : Provider) (key : String) (calls : List Exchange) (s : Session) :
    noting inner key calls s =
      (((inner key s).1, calls ++ [⟨key, (inner key s).1⟩]), (inner key s).2) :=
  rfl

end NotingM

/-- Notes change neither the answer nor the session. -/
theorem remembering_eq_noted (number : Nat) (lifetime : Option Nat) (inner : Provider)
    (key : String) (calls : List Exchange) (s : Session) :
    remembering number lifetime inner key s =
      ((rememberingIn number lifetime (noting inner) key calls s).1.1,
        (rememberingIn number lifetime (noting inner) key calls s).2) := by
  rw [← rememberingIn_session]
  unfold rememberingIn
  simp only [Session.bind_apply, NotingM.bind_apply, NotingM.lift_apply, monadLift_self]
  rcases onEmbeddings number _ _ with ⟨_ | e, looked⟩
  · dsimp only
    rw [NotingM.bind_apply, NotingM.noting_apply, Session.bind_apply]
    rcases inner key looked with ⟨_ | e, next⟩ <;> rfl
  · rfl

/-- A provider with a store before it: the number of the store, the lifetime of its entries, and the
provider that is asked where there is no live entry. -/
structure Memory where
  number : Nat
  lifetime : Option Nat
  inner : Provider

namespace Memory

def provider (m : Memory) : Provider :=
  remembering m.number m.lifetime m.inner

/-- A request as it was served: what was given for the key, the calls of the inner provider that
were made for it, and the store that was left. -/
structure Served where
  key : String
  answer : Answer
  calls : List Exchange
  kept : Expiring (Embedding Float)

/-- Serves a request for a key. -/
def serve (m : Memory) (s : Session) (key : String) : Served × Session :=
  let ((answer, calls), next) := rememberingIn m.number m.lifetime (noting m.inner) key [] s
  (⟨key, answer, calls, next.embeddingStore m.number⟩, next)

@[simp] theorem key_serve (m : Memory) (s : Session) (key : String) : (m.serve s key).1.key = key :=
  rfl

theorem kept_serve (m : Memory) (s : Session) (key : String) :
    (m.serve s key).1.kept = (m.serve s key).2.embeddingStore m.number :=
  rfl

/-- The requests for some keys as they are served, one after another. -/
def served (m : Memory) (s : Session) : List String → List Served
  | [] => []
  | key :: keys => (m.serve s key).1 :: m.served (m.serve s key).2 keys

/-- What is given for some keys, one after another. -/
def answers (m : Memory) (s : Session) : List String → List Answer
  | [] => []
  | key :: keys => (m.provider key s).1 :: m.answers (m.provider key s).2 keys

/-- The session after some requests. -/
def after (m : Memory) (s : Session) (keys : List String) : Session :=
  keys.foldl (fun s key => (m.provider key s).2) s

theorem provider_eq_serve (m : Memory) (s : Session) (key : String) :
    m.provider key s = ((m.serve s key).1.answer, (m.serve s key).2) :=
  remembering_eq_noted ..

theorem after_cons (m : Memory) (s : Session) (key : String) (keys : List String) :
    m.after s (key :: keys) = m.after (m.serve s key).2 keys := by
  rw [after, List.foldl_cons, provider_eq_serve]
  rfl

/-- The requests are served as without notes. -/
theorem served_eq_answers (m : Memory) (s : Session) (keys : List String) :
    (m.served s keys).map (fun v => (v.key, v.answer)) = keys.zip (m.answers s keys) := by
  induction keys generalizing s with
  | nil => rfl
  | cons key keys ih =>
    rw [served, answers, provider_eq_serve, List.map_cons, List.zip_cons_cons, ih]
    rfl

theorem exists_serve_of_mem_served {m : Memory} {s : Session} {keys : List String} {v : Served}
    (hv : v ∈ m.served s keys) : ∃ t, (m.serve t v.key).1 = v := by
  induction keys generalizing s with
  | nil => cases hv
  | cons key keys ih =>
    rcases List.mem_cons.1 hv with rfl | hv
    · exact ⟨s, rfl⟩
    · exact ih hv

/-- Neither the store nor the clock is the inner provider's to change, and time does not go back
while it is asked. -/
structure Undisturbed (m : Memory) : Prop where
  store : ∀ key s, (m.inner key s).2.embeddingStore m.number = s.embeddingStore m.number
  clock : ∀ key s, (m.inner key s).2.clock = s.clock
  readings : ∀ key s, s.readings ≤ (m.inner key s).2.readings

/-! ## One request -/

/-- What a request for a key can do with a store between the readings `first` and `last` of a clock,
and how it is then served. -/
inductive Recalls (lifetime : Option Nat) (clock : Nat → Nat) (first last : Nat) (key : String)
    (kept : Expiring (Embedding Float)) : Served → Prop where
  /-- A live entry is given. -/
  | hit {e : Embedding Float} (hfound : (kept.lookup (clock first) key).1 = some e) :
      Recalls lifetime clock first last key kept
        ⟨key, .ok e, [], (kept.lookup (clock first) key).2⟩
  /-- The inner provider fails, and nothing is stored. -/
  | refused {failure : ProviderFailure} (hmissing : (kept.lookup (clock first) key).1 = none) :
      Recalls lifetime clock first last key kept
        ⟨key, .error failure, [⟨key, .error failure⟩], (kept.lookup (clock first) key).2⟩
  /-- What the inner provider gives is stored. -/
  | learnt {e : Embedding Float} {i : Nat} (hmissing : (kept.lookup (clock first) key).1 = none)
      (hfirst : first < i) (hlast : i < last) :
      Recalls lifetime clock first last key kept
        ⟨key, .ok e, [⟨key, .ok e⟩],
          (kept.lookup (clock first) key).2.store (retention lifetime) (clock i) key e⟩

/-- The session in which a request for a key asks the inner provider, if it does. -/
def looked (m : Memory) (s : Session) (key : String) : Session :=
  (onEmbeddings m.number (fun kept => kept.lookup (now s).1 key) (now s).2).2

variable {m : Memory} {s : Session} {key : String}

theorem embeddingStore_looked (m : Memory) (s : Session) (key : String) :
    (m.looked s key).embeddingStore m.number =
      ((s.embeddingStore m.number).lookup (s.clock s.readings) key).2 :=
  embeddingStore_onEmbeddings ..

theorem serve_of_found {e : Embedding Float}
    (hfound : ((s.embeddingStore m.number).lookup (s.clock s.readings) key).1 = some e) :
    m.serve s key =
      (⟨key, .ok e, [], (m.looked s key).embeddingStore m.number⟩, m.looked s key) := by
  have hlookup : (onEmbeddings m.number (fun kept => kept.lookup (now s).1 key) (now s).2).1 =
      some e := hfound
  simp only [serve, rememberingIn, NotingM.bind_apply, NotingM.lift_apply, hlookup]
  rfl

theorem serve_of_missing
    (hmissing : ((s.embeddingStore m.number).lookup (s.clock s.readings) key).1 = none) :
    m.serve s key =
      match m.inner key (m.looked s key) with
      | (.error failure, next) =>
        (⟨key, .error failure, [⟨key, .error failure⟩], next.embeddingStore m.number⟩, next)
      | (.ok e, next) =>
        let learnt := (onEmbeddings m.number
          (fun kept => ((), kept.store (retention m.lifetime) (now next).1 key e)) (now next).2).2
        (⟨key, .ok e, [⟨key, .ok e⟩], learnt.embeddingStore m.number⟩, learnt) := by
  have hlookup : (onEmbeddings m.number (fun kept => kept.lookup (now s).1 key) (now s).2).1 =
      none := hmissing
  simp only [serve, rememberingIn, NotingM.bind_apply, NotingM.lift_apply, NotingM.noting_apply,
    hlookup]
  rw [looked]
  rcases m.inner key _ with ⟨failure | e, next⟩ <;> rfl

/-- A request recalls its key, and time goes on while it is served. -/
theorem recalls (h : m.Undisturbed) (s : Session) (key : String) :
    (m.serve s key).2.clock = s.clock ∧ s.readings < (m.serve s key).2.readings ∧
    Recalls m.lifetime s.clock s.readings (m.serve s key).2.readings key
      (s.embeddingStore m.number) (m.serve s key).1 := by
  have hclock : (m.looked s key).clock = s.clock := rfl
  have hreadings : s.readings < (m.looked s key).readings := Nat.lt_succ_self _
  have hkept := embeddingStore_looked m s key
  cases hfound : ((s.embeddingStore m.number).lookup (s.clock s.readings) key).1 with
  | some e =>
    rw [serve_of_found hfound, hkept]
    exact ⟨hclock, hreadings, .hit hfound⟩
  | none =>
    have hstore' := h.store key (m.looked s key)
    have hclock' := h.clock key (m.looked s key)
    have hreadings' := h.readings key (m.looked s key)
    rw [serve_of_missing hfound]
    -- whatever the call does, it leaves the store as the lookup has left it
    generalize m.inner key (m.looked s key) = called at hstore' hclock' hreadings' ⊢
    rw [hkept] at hstore'
    rw [hclock] at hclock'
    have hlast : s.readings < called.2.readings := Nat.lt_of_lt_of_le hreadings hreadings'
    obtain ⟨failure | e, next⟩ := called
    · dsimp only at hstore' hclock' ⊢
      rw [hstore']
      exact ⟨hclock', hlast, .refused hfound⟩
    · refine ⟨hclock', Nat.lt_succ_of_lt hlast, ?_⟩
      dsimp only at hstore' hclock' ⊢
      rw [embeddingStore_onEmbeddings]
      change Recalls _ _ _ _ _ _ ⟨_, _, _, (next.embeddingStore m.number).store _
        (next.clock next.readings) _ _⟩
      rw [hstore', hclock']
      exact .learnt hfound hlast (Nat.lt_succ_self _)

namespace Recalls

variable {lifetime : Option Nat} {clock : Nat → Nat} {first last : Nat}
  {kept : Expiring (Embedding Float)} {v : Served}

section

variable (h : Recalls lifetime clock first last key kept v)

include h

theorem calls_cases : v.calls = [] ∨ v.calls = [⟨key, v.answer⟩] := by
  cases h with
  | hit hfound => exact .inl rfl
  | refused hmissing => exact .inr rfl
  | learnt hmissing hfirst hlast => exact .inr rfl

/-- What is given was kept under the key, or the inner provider has given it. -/
theorem of_ok {e : Embedding Float} (he : v.answer = .ok e) :
    (∃ k, kept.kept? key = some k ∧ k.value = e) ∨ v.calls = [⟨key, .ok e⟩] := by
  cases h with
  | hit hfound =>
    obtain rfl := Except.ok.inj he
    obtain ⟨k, hk, -, hvalue⟩ := Expiring.lookup_eq_some_iff.1 hfound
    exact .inl ⟨k, hk, hvalue⟩
  | refused hmissing => cases he
  | learnt hmissing hfirst hlast =>
    obtain rfl := Except.ok.inj he
    exact .inr rfl

/-- A failure is the inner provider's, and nothing is left under the key. -/
theorem of_error {failure : ProviderFailure} (hfailure : v.answer = .error failure) :
    v.calls = [⟨key, .error failure⟩] ∧ v.kept.kept? key = none := by
  cases h with
  | hit hfound => cases hfailure
  | refused hmissing =>
    obtain rfl := Except.error.inj hfailure
    exact ⟨rfl, Expiring.kept?_of_lookup_eq_none hmissing⟩
  | learnt hmissing hfirst hlast => cases hfailure

/-- An entry was there before, or it is the one that was stored. -/
theorem of_kept {k : String} {e : Kept (Embedding Float)} (he : v.kept.kept? k = some e) :
    kept.kept? k = some e ∨
    k = key ∧ v.calls = [⟨key, .ok e.value⟩] ∧
      ∃ i, first < i ∧ i < last ∧ e = ⟨e.value, (retention lifetime).expiry? (clock i)⟩ := by
  cases h with
  | hit hfound => exact .inl (Expiring.kept?_of_kept?_lookup he)
  | refused hmissing => exact .inl (Expiring.kept?_of_kept?_lookup he)
  | @learnt _ i hmissing hfirst hlast =>
    obtain ⟨rfl, rfl⟩ | he := Expiring.kept?_of_kept?_store he
    · exact .inr ⟨rfl, rfl, i, hfirst, hlast, rfl⟩
    · exact .inl (Expiring.kept?_of_kept?_lookup he)

/-- Where nothing is found the inner provider is asked, and a success is kept. -/
theorem of_missing (hmissing : (kept.lookup (clock first) key).1 = none) :
    v.calls = [⟨key, v.answer⟩] ∧ (v.kept.kept? key).isSome = v.answer.isOk := by
  cases h with
  | hit hfound =>
    rw [hmissing] at hfound
    cases hfound
  | refused _ =>
    refine ⟨rfl, ?_⟩
    rw [Expiring.kept?_of_lookup_eq_none hmissing]
    rfl
  | learnt _ hfirst hlast =>
    refine ⟨rfl, ?_⟩
    rw [Expiring.kept?_store, if_pos rfl]
    rfl

/-- Where a live entry is found the inner provider is not asked, and the entry stays. -/
theorem of_live {e : Kept (Embedding Float)} (he : kept.kept? key = some e)
    (hlive : e.isExpired (clock first) = false) :
    v.calls = [] ∧ v.kept.kept? key = some e := by
  have hfound := Expiring.lookup_of_live he hlive
  cases h with
  | hit _ => exact ⟨rfl, by rw [hfound, he]⟩
  | refused hmissing =>
    rw [hfound] at hmissing
    cases hmissing
  | learnt hmissing hfirst hlast =>
    rw [hfound] at hmissing
    cases hmissing

end

/-- What other keys hold stays, unless the sweep finds that it is expired. -/
theorem kept?_of_ne (h : Recalls lifetime clock first last key kept v) {k : String} (hk : k ≠ key)
    (hlive : ∀ e, kept.kept? k = some e →
      ∀ i, first ≤ i → i < last → e.isExpired (clock i) = false) :
    v.kept.kept? k = kept.kept? k := by
  have hlooked : (kept.lookup (clock first) key).2.kept? k = kept.kept? k := by
    rw [Expiring.kept?_lookup, if_neg hk]
  cases h with
  | hit hfound => exact hlooked
  | refused hmissing => exact hlooked
  | learnt hmissing hfirst hlast =>
    rw [Expiring.kept?_store, if_neg hk, Expiring.prepared]
    split
    · rw [Expiring.kept?_sweep, hlooked]
      cases he : kept.kept? k with
      | none => rfl
      | some e =>
        rw [Option.filter_some_pos]
        simp [hlive e he _ (Nat.le_of_lt hfirst) hlast]
    · exact hlooked

end Recalls

/-! ## What is given -/

/-- If whatever is kept was given in some calls of the past, what is given in a run was given in one
of these or of those made up to then. -/
theorem answered_by_call (h : m.Undisturbed) {keys : List String} :
    ∀ {s : Session} {past : List Exchange},
      (s.embeddingStore m.number).AllKept (fun key e => ⟨key, .ok e⟩ ∈ past) →
      ∀ {earlier v later}, m.served s keys = earlier ++ v :: later →
        ∀ {e}, v.answer = .ok e → ⟨v.key, .ok e⟩ ∈ past ++ (earlier ++ [v]).flatMap (·.calls) := by
  induction keys with
  | nil =>
    intro s past _ earlier v later heq
    simp [served] at heq
  | cons key keys ih =>
    intro s past hkept earlier v later heq e he
    obtain ⟨-, -, hrecalls⟩ := recalls h s key
    cases earlier with
    | nil =>
      obtain ⟨rfl, -⟩ := List.cons.inj heq
      rcases hrecalls.of_ok he with ⟨k, hk, rfl⟩ | hcalls
      · exact List.mem_append_left _ (hkept key k hk)
      · refine List.mem_append_right _ ?_
        simp [hcalls]
    | cons first earlier =>
      obtain ⟨rfl, hrest⟩ := List.cons.inj heq
      have hkept' : ((m.serve s key).2.embeddingStore m.number).AllKept
          (fun key' e => ⟨key', .ok e⟩ ∈ past ++ (m.serve s key).1.calls) := by
        intro k entry hentry
        rcases hrecalls.of_kept hentry with hentry | ⟨rfl, hcalls, -⟩
        · exact List.mem_append_left _ (hkept k entry hentry)
        · exact List.mem_append_right _ (hcalls ▸ List.mem_singleton_self _)
      have hmem := ih hkept' hrest he
      rwa [List.cons_append, List.flatMap_cons, ← List.append_assoc]

/-! ## Entries in the course of time -/

/-- At each reading from now on until the one numbered `last` whatever is kept now is expired, or
whatever is kept is live. -/
def Throughout (m : Memory) (expired : Bool) (s : Session) (last : Nat) : Prop :=
  ∀ key k, (s.embeddingStore m.number).kept? key = some k →
    ∀ i, s.readings ≤ i → i < last → k.isExpired (s.clock i) = expired

/-- Whatever is stored from now on is expired at each reading from then on, or it is live. -/
def Storing (m : Memory) (expired : Bool) (s : Session) (last : Nat) : Prop :=
  ∀ (e : Embedding Float) (i j : Nat), s.readings ≤ i → i ≤ j → j < last →
    (⟨e, (retention m.lifetime).expiry? (s.clock i)⟩ : Kept _).isExpired (s.clock j) = expired

/-- No entry expires while the requests are served: whatever is kept at some moment is live from
then on. -/
def Lasting (m : Memory) (s : Session) (keys : List String) : Prop :=
  ∀ earlier later, keys = earlier ++ later →
    m.Throughout false (m.after s earlier) (m.after s keys).readings

theorem readings_le_after (h : m.Undisturbed) (s : Session) (keys : List String) :
    s.readings ≤ (m.after s keys).readings := by
  induction keys generalizing s with
  | nil => exact Nat.le_refl _
  | cons key keys ih =>
    obtain ⟨-, hreadings, -⟩ := recalls h s key
    rw [after_cons]
    exact Nat.le_trans (Nat.le_of_lt hreadings) (ih _)

theorem readings_lt_after_cons (h : m.Undisturbed) (s : Session) (key : String)
    (keys : List String) : s.readings < (m.after s (key :: keys)).readings := by
  obtain ⟨-, hreadings, -⟩ := recalls h s key
  rw [after_cons]
  exact Nat.lt_of_lt_of_le hreadings (readings_le_after h _ keys)

section

variable {expired : Bool} {last : Nat} (h : m.Undisturbed)

include h

theorem Storing.serve (hstoring : m.Storing expired s last) (key : String) :
    m.Storing expired (m.serve s key).2 last := by
  obtain ⟨hclock, hreadings, -⟩ := recalls h s key
  intro e i j hi hij hj
  rw [hclock]
  exact hstoring e i j (Nat.le_trans (Nat.le_of_lt hreadings) hi) hij hj

theorem Throughout.serve (hkept : m.Throughout expired s last)
    (hstoring : m.Storing expired s last) (key : String) :
    m.Throughout expired (m.serve s key).2 last := by
  obtain ⟨hclock, hreadings, hrecalls⟩ := recalls h s key
  intro k entry hentry j hj hlast
  rw [hclock]
  rcases hrecalls.of_kept hentry with hentry | ⟨-, -, i, hfirst, hi, hstored⟩
  · exact hkept k entry hentry j (Nat.le_trans (Nat.le_of_lt hreadings) hj) hlast
  · rw [hstored]
    exact hstoring entry.value i j (Nat.le_of_lt hfirst) (Nat.le_trans (Nat.le_of_lt hi) hj) hlast

theorem Throughout.after {keys : List String} (hkept : m.Throughout expired s last)
    (hstoring : m.Storing expired s last) : m.Throughout expired (m.after s keys) last := by
  induction keys generalizing s with
  | nil => exact hkept
  | cons key keys ih =>
    rw [after_cons]
    exact ih (hkept.serve h hstoring key) (hstoring.serve h key)

omit h in
theorem throughout_of_empty (hempty : s.embeddingStore m.number = .empty) (expired : Bool)
    (last : Nat) : m.Throughout expired s last := by
  intro key k hk
  rw [hempty] at hk
  cases hk

/-- Entries that live at least as long as the requests are served do not expire. -/
theorem lasting_of_lifetime (hempty : s.embeddingStore m.number = .empty) {keys : List String}
    (hlifetime : ∀ ttl ∈ m.lifetime, ∀ i j, s.readings ≤ i → i ≤ j →
      j < (m.after s keys).readings →
        clockHorizon ≤ s.clock i + ttl ∨ s.clock j < s.clock i + ttl) :
    m.Lasting s keys := by
  have hstoring : m.Storing false s (m.after s keys).readings := fun e i j hi hij hj =>
    Kept.isExpired_expiry?_eq_false_iff.2 fun ttl httl => hlifetime ttl httl i j hi hij hj
  intro earlier later _
  exact (throughout_of_empty hempty false _).after h hstoring

end

theorem Lasting.head {keys : List String} (hlasting : m.Lasting s keys) :
    m.Throughout false s (m.after s keys).readings :=
  hlasting [] keys rfl

theorem Lasting.tail {keys : List String} (hlasting : m.Lasting s (key :: keys)) :
    m.Lasting (m.serve s key).2 keys := by
  rintro earlier later rfl
  have hmoment := hlasting (key :: earlier) later rfl
  rwa [after_cons, after_cons] at hmoment

/-! ## How often the inner provider is asked -/

/-- How many answers there are up to and including the first success, or all if there is none. -/
def untilSuccess (answers : List Answer) : Nat :=
  min (answers.findIdx (·.isOk) + 1) answers.length

theorem untilSuccess_cons (a : Answer) (answers : List Answer) :
    untilSuccess (a :: answers) = if a.isOk then 1 else untilSuccess answers + 1 := by
  rw [untilSuccess, untilSuccess, List.findIdx_cons, List.length_cons]
  cases a.isOk
  · simp only [cond_false, Bool.false_eq_true, if_false]
    omega
  · simp only [cond_true, if_true]
    omega

/-- If entries do not expire, a key for which something is kept is not asked for, and any other one
is asked for until the first success. -/
theorem countP_calls (h : m.Undisturbed) (key : String) {keys : List String} :
    ∀ {s : Session}, m.Lasting s keys →
      ((m.served s keys).flatMap (·.calls)).countP (·.key = key) =
        if ((s.embeddingStore m.number).kept? key).isSome then 0
        else untilSuccess (((m.served s keys).filter (·.key = key)).map (·.answer)) := by
  induction keys with
  | nil =>
    intro s _
    exact (ite_self 0).symm
  | cons k keys ih =>
    intro s hlasting
    obtain ⟨-, hreadings, hrecalls⟩ := recalls h s k
    -- this request is over before the last reading, so nothing expires while it is served
    have hwithin : (m.serve s k).2.readings ≤ (m.after s (k :: keys)).readings := by
      rw [after_cons]
      exact readings_le_after h _ keys
    have hlive : ∀ k' e, (s.embeddingStore m.number).kept? k' = some e →
        ∀ i, s.readings ≤ i → i < (m.serve s k).2.readings → e.isExpired (s.clock i) = false :=
      fun k' e he i hi hlast => hlasting.head k' e he i hi (Nat.lt_of_lt_of_le hlast hwithin)
    rw [served, List.flatMap_cons, List.countP_append, ih hlasting.tail, ← kept_serve]
    by_cases hk : k = key
    · subst hk
      rw [List.filter_cons_of_pos (by simp), List.map_cons, untilSuccess_cons]
      cases hentry : (s.embeddingStore m.number).kept? k with
      | some e =>
        obtain ⟨hcalls, hkept⟩ :=
          hrecalls.of_live hentry (hlive k e hentry s.readings (Nat.le_refl _) hreadings)
        rw [hcalls, hkept]
        rfl
      | none =>
        obtain ⟨hcalls, hkept⟩ := hrecalls.of_missing (by rw [Expiring.lookup_of_none hentry])
        rw [hcalls, hkept]
        cases (m.serve s k).1.answer.isOk
        · simp [Nat.add_comm]
        · simp
    · have hnone : (m.serve s k).1.calls.countP (·.key = key) = 0 := by
        rcases hrecalls.calls_cases with hcalls | hcalls <;> simp [hcalls, hk]
      rw [hnone, Nat.zero_add, hrecalls.kept?_of_ne (Ne.symm hk) (hlive key),
        List.filter_cons_of_neg (by simp [hk])]

theorem calls_of_no_lifetime (h : m.Undisturbed) {last : Nat} {keys : List String} :
    ∀ {s : Session}, m.Throughout true s last → m.Storing true s last →
      (m.after s keys).readings ≤ last →
      ∀ v ∈ m.served s keys, v.calls = [⟨v.key, v.answer⟩] := by
  induction keys with
  | nil => nofun
  | cons key keys ih =>
    intro s hkept hstoring hlast v hv
    obtain ⟨-, -, hrecalls⟩ := recalls h s key
    have hfirst : s.readings < last :=
      Nat.lt_of_lt_of_le (readings_lt_after_cons h s key keys) hlast
    rw [after_cons] at hlast
    rcases List.mem_cons.1 hv with rfl | hv
    · have hmissing :
          ((s.embeddingStore m.number).lookup (s.clock s.readings) key).1 = none := by
        cases hentry : (s.embeddingStore m.number).kept? key with
        | none => rw [Expiring.lookup_of_none hentry]
        | some k =>
          have hexpired := hkept key k hentry s.readings (Nat.le_refl _) hfirst
          rw [Expiring.lookup_of_expired hentry hexpired]
      exact (hrecalls.of_missing hmissing).1
    · exact ih (hkept.serve h hstoring key) (hstoring.serve h key) hlast v hv

theorem storing_of_no_lifetime (hlifetime : m.lifetime = some 0) {last : Nat}
    (hsteady : s.Steady last) : m.Storing true s last := by
  intro e i j hi hij hj
  obtain ⟨hle, -⟩ := hsteady i j hi hij hj
  obtain ⟨-, hrepresentable⟩ := hsteady i i hi (Nat.le_refl i) (Nat.lt_of_le_of_lt hij hj)
  rw [← Bool.not_eq_false, Kept.isExpired_expiry?_eq_false_iff]
  intro hlive
  have hspent := hlive 0 (by rw [retention, hlifetime]; rfl)
  omega

theorem calls_of_error (h : m.Undisturbed) {keys : List String} {v : Served}
    (hv : v ∈ m.served s keys) {failure : ProviderFailure} (hfailure : v.answer = .error failure) :
    v.calls = [⟨v.key, .error failure⟩] ∧ v.kept.kept? v.key = none := by
  obtain ⟨t, ht⟩ := exists_serve_of_mem_served hv
  obtain ⟨-, -, hrecalls⟩ := recalls h t v.key
  rw [ht] at hrecalls
  exact hrecalls.of_error hfailure

/-- In a run that starts with an empty store, a success has been given by the inner provider for the
same key, in a call for this request or an earlier one, and a failure by a call for this request,
which leaves nothing under the key. If entries do not expire, the inner provider is asked for a key
until the first success; if they have no lifetime, it is asked at each request. -/
theorem answers_come_from_calls (h : m.Undisturbed) (hempty : s.embeddingStore m.number = .empty)
    (keys : List String) :
    (m.served s keys).map (fun v => (v.key, v.answer)) = keys.zip (m.answers s keys) ∧
    (∀ earlier v later, m.served s keys = earlier ++ v :: later →
      (∀ e, v.answer = .ok e → ⟨v.key, .ok e⟩ ∈ (earlier ++ [v]).flatMap (·.calls)) ∧
      ∀ failure, v.answer = .error failure →
        v.calls = [⟨v.key, .error failure⟩] ∧ v.kept.kept? v.key = none) ∧
    (m.Lasting s keys → ∀ key, ((m.served s keys).flatMap (·.calls)).countP (·.key = key) =
      untilSuccess (((m.served s keys).filter (·.key = key)).map (·.answer))) ∧
    (m.lifetime = some 0 → s.Steady (m.after s keys).readings →
      ∀ v ∈ m.served s keys, v.calls = [⟨v.key, v.answer⟩]) := by
  have hnone : (s.embeddingStore m.number).AllKept
      fun key e => (⟨key, .ok e⟩ : Exchange) ∈ ([] : List Exchange) := by
    rw [hempty]
    exact .empty
  refine ⟨served_eq_answers m s keys, fun earlier v later hserved => ⟨fun e he => ?_, ?_⟩,
    fun hlasting key => ?_, fun hlifetime hsteady => ?_⟩
  · exact answered_by_call h hnone hserved he
  · intro failure hfailure
    have hv : v ∈ m.served s keys := by simp [hserved]
    exact calls_of_error h hv hfailure
  · rw [countP_calls h key hlasting, hempty]
    rfl
  · exact calls_of_no_lifetime h (throughout_of_empty hempty true _)
      (storing_of_no_lifetime hlifetime hsteady) (Nat.le_refl _)

/-- The inner provider fails when it is asked for the first time, and gives another score each time
after that. -/
theorem answers_come_from_calls_of_unsteady :
    let inner : Provider := .onRecord 1 fun key s =>
      (if s.providerCalls 1 = 0 then .error ⟨"table", .timeout, "late"⟩
        else .ok (.make key (Float.ofNat (s.providerCalls 1) / 4)), s)
    let s : Session := { clock := fun n => 2 * n }
    let keys := ["a", "b", "a", "b", "a"]
    let lasting : Memory := ⟨0, none, inner⟩
    let spent : Memory := ⟨0, some 0, inner⟩
    lasting.answers s keys = [.error ⟨"table", .timeout, "late"⟩, .ok (.make "b" 0.25),
      .ok (.make "a" 0.5), .ok (.make "b" 0.25), .ok (.make "a" 0.5)] ∧
    ((lasting.served s keys).flatMap (·.calls)).countP (·.key = "a") = 2 ∧
    ∀ v ∈ spent.served s keys, v.calls = [⟨v.key, v.answer⟩] := by
  intro inner s keys lasting spent
  have h (lifetime : Option Nat) : Undisturbed ⟨0, lifetime, inner⟩ :=
    ⟨fun _ _ => rfl, fun _ _ => rfl, fun _ _ => Nat.le_refl _⟩
  obtain ⟨-, -, hcount, -⟩ := answers_come_from_calls (h none) (s := s) rfl keys
  obtain ⟨-, -, -, hasked⟩ := answers_come_from_calls (h (some 0)) (s := s) rfl keys
  refine ⟨by decide +kernel, ?_, hasked rfl ?_⟩
  · rw [hcount (lasting_of_lifetime (h none) rfl nofun) "a"]
    decide +kernel
  · have hlast : (spent.after s keys).readings = 9 := by decide +kernel
    have hhorizon : 2 * 9 < clockHorizon := by decide
    intro i j _ hij hj
    rw [hlast] at hj
    change 2 * i ≤ 2 * j ∧ 2 * j < clockHorizon
    omega

end Memory

end Provider

end IntentGate
