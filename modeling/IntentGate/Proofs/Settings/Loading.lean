import IntentGate.Proofs.Double.Rounding
import IntentGate.Proofs.Traversal
import IntentGate.Settings

/-!
# Loading settings

What a variable does depends on nothing but its text: it gives a value, or nothing if it is absent,
or it offends (`Variable.Gives`, `Variable.Offends`). Loading puts this together. It succeeds with
the values that the variables give (`load_eq_ok_iff`), the defaults being in range as well
(`Variable.inRange_default`), and else fails with the fault of the first variable that offends
(`load_eq_error_iff`), in an order that is not that of the fields.
-/

namespace IntentGate.Settings

/-! ## Variables -/

/-- The variables, in the order in which they are looked at. -/
inductive Variable where
  | chainThreshold
  | rateWindow
  | rateLimit
  | decayHalfLife
  | executionLog

namespace Variable

/-- The variables, in this order. -/
def all : List Variable :=
  [chainThreshold, rateWindow, rateLimit, decayHalfLife, executionLog]

theorem mem_all (v : Variable) : v ∈ all := by
  cases v <;> simp [all]

/-- The values of a variable. -/
def Value : Variable → Type
  | chainThreshold => Float
  | rateWindow => Nat
  | rateLimit => Nat
  | decayHalfLife => Nat
  | executionLog => Bool

def name : Variable → String
  | chainThreshold => "INTENTUM_CHAIN_THRESHOLD"
  | rateWindow => "INTENTUM_RATE_WINDOW_SECS"
  | rateLimit => "INTENTUM_RATE_LIMIT"
  | decayHalfLife => "INTENTUM_DECAY_HALF_LIFE_SECS"
  | executionLog => "INTENTUM_EXECUTION_LOG"

/-- Reads the text of a variable without the blanks around it. -/
def read : (v : Variable) → String → Except String v.Value
  | chainThreshold => readReal
  | rateWindow => readNatural (UInt64.size - 1)
  | rateLimit => readNatural (UInt32.size - 1)
  | decayHalfLife => readNatural (UInt64.size - 1)
  | executionLog => readFlag

/-- Whether a value is in range; only two variables have one. -/
def InRange : (v : Variable) → v.Value → Prop
  | chainThreshold, (x : Float) => 0 ≤ x ∧ x ≤ 1
  | rateWindow, (seconds : Nat) => 1 ≤ seconds ∧ seconds ≤ 31622400
  | _, _ => True

instance : (v : Variable) → DecidablePred v.InRange
  | chainThreshold, (x : Float) => inferInstanceAs (Decidable (0 ≤ x ∧ x ≤ 1))
  | rateWindow, (seconds : Nat) =>
    inferInstanceAs (Decidable (1 ≤ seconds ∧ seconds ≤ 31622400))
  | rateLimit, _ => inferInstanceAs (Decidable True)
  | decayHalfLife, _ => inferInstanceAs (Decidable True)
  | executionLog, _ => inferInstanceAs (Decidable True)

/-- The fault of a value out of range, with the value as it was read. There is none for a variable
without a range. -/
def rangeFault : (v : Variable) → v.Value → SettingsFault
  | chainThreshold, (x : Float) =>
    ⟨chainThreshold.name, Layout.plain.text x, "must be within [0, 1]"⟩
  | rateWindow, (seconds : Nat) =>
    ⟨rateWindow.name, toString seconds, "must be within [1, 31622400]"⟩
  | v, _ => ⟨v.name, "", ""⟩

/-- The value of a variable that is not given. -/
def default : (v : Variable) → v.Value
  | chainThreshold => (0.7 : Float)
  | rateWindow => (60 : Nat)
  | rateLimit => (100 : Nat)
  | decayHalfLife => (3600 : Nat)
  | executionLog => false

theorem inRange_default (v : Variable) : v.InRange v.default := by
  cases v with
  | chainThreshold => exact (by decide +kernel : (0 : Float) ≤ 0.7 ∧ (0.7 : Float) ≤ 1)
  | rateWindow => exact (by decide : 1 ≤ 60 ∧ 60 ≤ 31622400)
  | _ => trivial

/-- A variable that is absent gives nothing, and one that is there gives what is read. -/
inductive Gives (lookup : String → Option String) (v : Variable) : Option v.Value → Prop where
  | absent (hname : lookup v.name = none) : Gives lookup v none
  | value {raw : String} {x : v.Value} (hname : lookup v.name = some raw)
      (hread : v.read (Text.trim raw) = .ok x) (hrange : v.InRange x) : Gives lookup v (some x)

theorem Gives.inRange {lookup : String → Option String} {v : Variable} {o : Option v.Value}
    (h : v.Gives lookup o) : v.InRange (o.getD v.default) := by
  cases h with
  | absent _ => exact v.inRange_default
  | value _ _ hrange => exact hrange

/-- A variable offends if it cannot be read, or else is out of range. -/
inductive Offends (lookup : String → Option String) (v : Variable) : SettingsFault → Prop where
  | malformed {raw reason : String} (hname : lookup v.name = some raw)
      (hread : v.read (Text.trim raw) = .error reason) : Offends lookup v ⟨v.name, raw, reason⟩
  | outOfRange {raw : String} {x : v.Value} (hname : lookup v.name = some raw)
      (hread : v.read (Text.trim raw) = .ok x) (hrange : ¬v.InRange x) :
      Offends lookup v (v.rangeFault x)

/-- Reads a variable. -/
def load (lookup : String → Option String) (v : Variable) : Except SettingsFault (Option v.Value) :=
  match lookup v.name with
  | none => .ok none
  | some raw =>
    match v.read (Text.trim raw) with
    | .ok x => if v.InRange x then .ok (some x) else .error (v.rangeFault x)
    | .error reason => .error ⟨v.name, raw, reason⟩

variable {lookup : String → Option String} {v : Variable}

theorem load_eq_ok_iff {o : Option v.Value} : v.load lookup = .ok o ↔ v.Gives lookup o := by
  unfold load
  constructor
  · intro h
    split at h
    · next hname =>
      cases h
      exact .absent hname
    · next raw hname =>
      split at h
      · next x hread =>
        split at h
        · next hrange =>
          cases h
          exact .value hname hread hrange
        · cases h
      · cases h
  · rintro (hname | ⟨hname, hread, hrange⟩)
    · simp only [hname]
    · simp only [hname, hread, if_pos hrange]

theorem load_eq_error_iff {f : SettingsFault} :
    v.load lookup = .error f ↔ v.Offends lookup f := by
  unfold load
  constructor
  · intro h
    split at h
    · cases h
    · next raw hname =>
      split at h
      · next x hread =>
        split at h
        · cases h
        · next hrange =>
          cases h
          exact .outOfRange hname hread hrange
      · next reason hread =>
        cases h
        exact .malformed hname hread
  · rintro (⟨hname, hread⟩ | ⟨hname, hread, hrange⟩)
    · simp only [hname, hread]
    · simp only [hname, hread, if_neg hrange]

end Variable

/-! ## Settings -/

/-- The nanoseconds of seconds. -/
def nanoseconds (seconds : Nat) : Nat :=
  seconds * Span.perSecond

/-- The settings with a value for each variable. -/
def ofValues (value : (v : Variable) → v.Value) : Settings where
  rateLimit := value .rateLimit
  rateWindow := nanoseconds (value .rateWindow)
  chainThreshold := value .chainThreshold
  decayHalfLife := nanoseconds (value .decayHalfLife)
  executionLog := value .executionLog

variable {lookup : String → Option String}

/-- A variable is read as it stands, and then its range is looked at. -/
theorem load_eq_bind (lookup : String → Option String) (v : Variable) :
    v.load lookup = named? lookup v.name v.read >>= fun o =>
      match o with
      | none => .ok none
      | some x => if v.InRange x then .ok (some x) else .error (v.rangeFault x) := by
  unfold named? Variable.load
  cases lookup v.name with
  | none => rfl
  | some raw =>
    dsimp only
    cases v.read (Text.trim raw) with
    | ok x => rfl
    | error reason => rfl

/-- A variable without a range is what is read. -/
theorem load_eq_named? (lookup : String → Option String) (v : Variable) (h : ∀ x, v.InRange x) :
    v.load lookup = named? lookup v.name v.read := by
  rw [load_eq_bind]
  cases named? lookup v.name v.read with
  | error f => rfl
  | ok o =>
    cases o with
    | none => rfl
    | some x => exact if_pos (h x)

/-- The value of a variable, the default one if it is absent. -/
def valueOf (lookup : String → Option String) (v : Variable) : Except SettingsFault v.Value :=
  (v.load lookup).map fun o => o.getD v.default

theorem readChainThreshold_eq (lookup : String → Option String) :
    readChainThreshold lookup = valueOf lookup .chainThreshold := by
  have hdefault : 0 ≤ standard.chainThreshold ∧ standard.chainThreshold ≤ 1 :=
    Variable.inRange_default .chainThreshold
  unfold readChainThreshold valueOf
  rw [load_eq_bind]
  change named? lookup Variable.chainThreshold.name Variable.chainThreshold.read >>= _ = _
  cases named? lookup Variable.chainThreshold.name Variable.chainThreshold.read with
  | error f => rfl
  | ok o =>
    cases o with
    | none =>
      -- the default is looked at as well
      simp only [bind, Except.bind]
      exact if_pos hdefault
    | some x =>
      change (if Variable.chainThreshold.InRange x then _ else _) =
        (if Variable.chainThreshold.InRange x then _ else _ : Except _ _).map _
      split <;> rfl

theorem readRateWindow_eq (lookup : String → Option String) :
    readRateWindow lookup = (valueOf lookup .rateWindow).map nanoseconds := by
  unfold readRateWindow valueOf
  rw [load_eq_bind]
  change named? lookup Variable.rateWindow.name Variable.rateWindow.read >>= _ = _
  cases named? lookup Variable.rateWindow.name Variable.rateWindow.read with
  | error f => rfl
  | ok o =>
    cases o with
    | none => rfl
    | some seconds =>
      change (if Variable.rateWindow.InRange seconds then _ else _) =
        ((if Variable.rateWindow.InRange seconds then _ else _ : Except _ _).map _).map _
      split <;> rfl

theorem read_eq (lookup : String → Option String) (v : Variable) (h : ∀ x, v.InRange x) :
    (named? lookup v.name v.read).map (fun o => o.getD v.default) = valueOf lookup v := by
  rw [valueOf, load_eq_named? lookup v h]

/-- The settings are the values of the variables, as long as all of them have one. -/
theorem load_eq (lookup : String → Option String) :
    load lookup = do
      let threshold ← valueOf lookup .chainThreshold
      let window ← valueOf lookup .rateWindow
      let limit ← valueOf lookup .rateLimit
      let halfLife ← valueOf lookup .decayHalfLife
      let log ← valueOf lookup .executionLog
      return ofValues fun
        | .chainThreshold => threshold
        | .rateWindow => window
        | .rateLimit => limit
        | .decayHalfLife => halfLife
        | .executionLog => log := by
  have hlimit := read_eq lookup .rateLimit fun _ => trivial
  have hhalfLife := read_eq lookup .decayHalfLife fun _ => trivial
  have hlog := read_eq lookup .executionLog fun _ => trivial
  unfold load
  rw [readChainThreshold_eq, readRateWindow_eq, ← hlimit, ← hhalfLife, ← hlog]
  cases valueOf lookup .chainThreshold with
  | error f => rfl
  | ok threshold =>
    cases valueOf lookup .rateWindow with
    | error f => rfl
    | ok window =>
      change (named? lookup Variable.rateLimit.name Variable.rateLimit.read >>= fun _ =>
        named? lookup Variable.decayHalfLife.name Variable.decayHalfLife.read >>= fun _ =>
        named? lookup Variable.executionLog.name Variable.executionLog.read >>= fun _ => _) = _
      cases named? lookup Variable.rateLimit.name Variable.rateLimit.read with
      | error f => rfl
      | ok limit =>
        cases named? lookup Variable.decayHalfLife.name Variable.decayHalfLife.read with
        | error f => rfl
        | ok halfLife =>
          cases named? lookup Variable.executionLog.name Variable.executionLog.read with
          | error f => rfl
          | ok log =>
            cases halfLife <;> rfl

/-- Loading succeeds if all variables have values, and then gives the settings with these. -/
theorem load_eq_ok_iff {s : Settings} :
    load lookup = .ok s ↔ ∃ given : (v : Variable) → Option v.Value,
      (∀ v, Variable.Gives lookup v (given v)) ∧
        s = ofValues fun v => (given v).getD v.default := by
  rw [load_eq]
  simp only [Traversal.bind_eq_ok_iff, valueOf, Traversal.map_eq_ok_iff, Variable.load_eq_ok_iff]
  constructor
  · rintro ⟨_, ⟨threshold, hthreshold, rfl⟩, _, ⟨window, hwindow, rfl⟩, _, ⟨limit, hlimit, rfl⟩, _,
      ⟨halfLife, hhalfLife, rfl⟩, _, ⟨log, hlog, rfl⟩, h⟩
    refine ⟨fun
      | .chainThreshold => threshold
      | .rateWindow => window
      | .rateLimit => limit
      | .decayHalfLife => halfLife
      | .executionLog => log, fun v => ?_, (Except.ok.inj h).symm⟩
    cases v <;> assumption
  · rintro ⟨given, hgiven, rfl⟩
    exact ⟨_, ⟨_, hgiven .chainThreshold, rfl⟩, _, ⟨_, hgiven .rateWindow, rfl⟩, _,
      ⟨_, hgiven .rateLimit, rfl⟩, _, ⟨_, hgiven .decayHalfLife, rfl⟩, _,
      ⟨_, hgiven .executionLog, rfl⟩, rfl⟩

/-- Where no variable is set, the settings are the standard ones. -/
theorem load_of_absent (h : ∀ v : Variable, lookup v.name = none) : load lookup = .ok standard :=
  load_eq_ok_iff.2 ⟨fun _ => none, fun v => .absent (h v), rfl⟩

/-- Reads a variable for nothing but its fault. -/
def check (lookup : String → Option String) (v : Variable) : Except SettingsFault Unit :=
  (valueOf lookup v).map fun _ => ()

/-- Loading has the fault that going through the variables in their order has. -/
theorem load_map_eq (lookup : String → Option String) :
    (load lookup).map (fun _ => ()) = (Variable.all.mapM (check lookup)).map fun _ => () := by
  rw [load_eq]
  simp only [Variable.all, List.mapM_cons, List.mapM_nil, check]
  cases valueOf lookup .chainThreshold with
  | error f => rfl
  | ok threshold =>
    cases valueOf lookup .rateWindow with
    | error f => rfl
    | ok window =>
      cases valueOf lookup .rateLimit with
      | error f => rfl
      | ok limit =>
        cases valueOf lookup .decayHalfLife with
        | error f => rfl
        | ok halfLife => cases valueOf lookup .executionLog <;> rfl

/-- Loading fails with the fault of the first variable that offends. -/
theorem load_eq_error_iff {f : SettingsFault} :
    load lookup = .error f ↔ ∃ before v after, Variable.all = before ++ v :: after ∧
      (∀ u ∈ before, ∃ o, Variable.Gives lookup u o) ∧ Variable.Offends lookup v f := by
  have hmap : load lookup = .error f ↔ Variable.all.mapM (check lookup) = .error f := by
    rw [← Traversal.map_eq_error_iff, load_map_eq, Traversal.map_eq_error_iff]
  have hgives (u : Variable) :
      (∃ y, check lookup u = .ok y) ↔ ∃ o, Variable.Gives lookup u o := by
    simp only [check, valueOf, Traversal.map_eq_ok_iff, Variable.load_eq_ok_iff]
    exact ⟨fun ⟨_, _, ⟨o, ho, _⟩, _⟩ => ⟨o, ho⟩, fun ⟨o, ho⟩ => ⟨(), _, ⟨o, ho, rfl⟩, trivial⟩⟩
  have hoffends (v : Variable) : check lookup v = .error f ↔ Variable.Offends lookup v f := by
    rw [check, valueOf, Traversal.map_eq_error_iff, Traversal.map_eq_error_iff,
      Variable.load_eq_error_iff]
  rw [hmap, Traversal.mapM_eq_error_iff]
  simp only [hgives, hoffends]

theorem load_succeeds_iff :
    (∃ s, load lookup = .ok s) ↔ ∀ v, ∃ o, Variable.Gives lookup v o := by
  simp only [load_eq_ok_iff]
  constructor
  · rintro ⟨-, given, hgiven, -⟩ v
    exact ⟨given v, hgiven v⟩
  · intro h
    choose given hgiven using h
    exact ⟨_, given, hgiven, rfl⟩

/-- What holds of all settings that have been loaded. -/
structure InBounds (s : Settings) : Prop where
  chainThreshold : 0 ≤ s.chainThreshold ∧ s.chainThreshold ≤ 1
  chainThreshold_isNaN : s.chainThreshold.isNaN = false
  rateWindow : ∃ seconds, 1 ≤ seconds ∧ seconds ≤ 31622400 ∧ s.rateWindow = nanoseconds seconds

theorem inBounds_of_load {s : Settings} (h : load lookup = .ok s) : s.InBounds := by
  obtain ⟨given, hgiven, rfl⟩ := load_eq_ok_iff.1 h
  have hthreshold := (hgiven .chainThreshold).inRange
  obtain ⟨hlow, hhigh⟩ := (hgiven .rateWindow).inRange
  exact ⟨hthreshold, (Double.le_iff.1 hthreshold.1).2.1, _, hlow, hhigh, rfl⟩

/-! ## The half-life as a span -/

theorem halfLifeSpan_eq_min (s : Settings) :
    s.halfLifeSpan = min (s.decayHalfLife : Int) Span.longest := by
  rw [halfLifeSpan, Int.min_def]

/-- Loading succeeds exactly if each variable is absent or can be read without the blanks around it
and is in range. The settings have what is read, or else the defaults, so the threshold and the
window are always in bounds. The fault is that of the first variable that offends: with its text as
it stands if this cannot be read, and with the value that was read if this is out of range. The
half-life is a span as it stands up to the longest span, this one above it, and longer for a longer
one. -/
theorem loads_exactly (lookup : String → Option String) :
    ((∃ s, load lookup = .ok s) ↔ ∀ v, ∃ o, Variable.Gives lookup v o) ∧
    (∀ s, load lookup = .ok s ↔ ∃ given : (v : Variable) → Option v.Value,
      (∀ v, Variable.Gives lookup v (given v)) ∧ s = ofValues fun v => (given v).getD v.default) ∧
    (∀ s, load lookup = .ok s → s.InBounds) ∧
    (∀ f, load lookup = .error f ↔ ∃ before v after, Variable.all = before ++ v :: after ∧
      (∀ u ∈ before, ∃ o, Variable.Gives lookup u o) ∧ Variable.Offends lookup v f) ∧
    ∀ s s' : Settings,
      ((s.decayHalfLife : Int) ≤ Span.longest → s.halfLifeSpan = s.decayHalfLife) ∧
      (Span.longest ≤ s.decayHalfLife → s.halfLifeSpan = Span.longest) ∧
      (s.decayHalfLife ≤ s'.decayHalfLife → s.halfLifeSpan ≤ s'.halfLifeSpan) := by
  refine ⟨load_succeeds_iff, fun _ => load_eq_ok_iff, fun _ => inBounds_of_load,
    fun _ => load_eq_error_iff, fun s s' => ?_⟩
  simp only [halfLifeSpan_eq_min]
  exact ⟨Int.min_eq_left, Int.min_eq_right, fun h =>
    min_le_min_right Span.longest (Int.ofNat_le.2 h)⟩

/-- A threshold that is not a number comes before a window that cannot be read, and a window that
cannot be read is told with its blanks. -/
theorem loads_exactly_of_two :
    let lookup (threshold : String) (name : String) : Option String :=
      if name = "INTENTUM_CHAIN_THRESHOLD" then some threshold
      else if name = "INTENTUM_RATE_WINDOW_SECS" then some " -1 "
      else none
    load (lookup "nan") =
        .error ⟨"INTENTUM_CHAIN_THRESHOLD", "NaN", "must be within [0, 1]"⟩ ∧
      load (lookup "1") =
        .error ⟨"INTENTUM_RATE_WINDOW_SECS", " -1 ", "invalid digit found in string"⟩ := by
  intro lookup
  obtain ⟨-, -, -, hnan, -⟩ := loads_exactly (lookup "nan")
  obtain ⟨-, -, -, hone, -⟩ := loads_exactly (lookup "1")
  have htext : Layout.plain.text (0 / 0) = "NaN" := by decide +kernel
  refine ⟨(hnan _).2 ⟨[], .chainThreshold, _, rfl, nofun, ?_⟩,
    (hone _).2 ⟨[.chainThreshold], .rateWindow, _, rfl, ?_, ?_⟩⟩
  · rw [← htext]
    exact .outOfRange rfl (by decide +kernel : readReal (Text.trim "nan") = .ok (0 / 0))
      (by decide +kernel : ¬((0 : Float) ≤ 0 / 0 ∧ (0 / 0 : Float) ≤ 1))
  · rintro u hu
    obtain rfl := List.mem_singleton.1 hu
    exact ⟨some (1 : Float), .value rfl (by decide +kernel : readReal (Text.trim "1") = .ok 1)
      (by decide +kernel : (0 : Float) ≤ 1 ∧ (1 : Float) ≤ 1)⟩
  · exact .malformed rfl (by decide +kernel :
      readNatural (UInt64.size - 1) (Text.trim " -1 ") = .error "invalid digit found in string")

end IntentGate.Settings
