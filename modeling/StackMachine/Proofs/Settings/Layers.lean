import Mathlib.Data.Option.Basic
import Mathlib.Tactic.MkIffOfInductiveProp
import StackMachine.Proofs.Settings.Meanings

/-!
# Layers of settings

The defaults, the environment and the flags lie over each other.  Each of the two upper layers says
something about some of the settings, and what it says covers what lies below.  An environment over
another one is a single environment.

* `Layer` is what a source says about the settings, and `Layer.applyTo` puts it over settings;
  `Layer.applyTo_orElse` makes one layer of two.
* `Environment.IsLayer` and `Settings.Overrides.IsLayer` tell what environments and flags say,
  `Environment.FirstComplaint` and `Settings.Overrides.Complaint` what is said about those that are
  malformed.
* `Settings.applyEnvironment_eq` and `Settings.ofSources_eq`: settings are made of layers.
* `Settings.layers_compose` is what follows for environments over each other, and for flags over an
  environment.
-/

namespace StackMachine

open Text

/-- What a source says about the settings: a value for some of them, nothing about the others.  The
value for a limit may be that there is none. -/
structure Layer where
  trace : Option Bool
  stepLimit : Option (Option Nat)
  logLevel : Option Int
  logFile : Option String

namespace Layer

/-- The settings with a layer over them. -/
def applyTo (l : Layer) (s : Settings) : Settings where
  trace := l.trace.getD s.trace
  stepLimit := (l.stepLimit.map (Option.map Int.ofNat)).getD s.stepLimit
  logLevel := l.logLevel.getD s.logLevel
  logFile := l.logFile.or s.logFile

/-- Two layers as one, the second below the first. -/
def orElse (l below : Layer) : Layer where
  trace := l.trace.or below.trace
  stepLimit := l.stepLimit.or below.stepLimit
  logLevel := l.logLevel.or below.logLevel
  logFile := l.logFile.or below.logFile

theorem applyTo_orElse
    (l below : Layer) (s : Settings) :
    (l.orElse below).applyTo s = l.applyTo (below.applyTo s) := by
  simp only [applyTo, orElse, Option.map_or, Option.getD_or, Option.or_assoc]

theorem orElse_self
    (l : Layer) :
    l.orElse l = l := by
  simp only [orElse, Option.or_self]

end Layer

namespace Settings

/-! ## Readings that may fail -/

section Readings

variable {α β : Type} {x : Except SettingsError α} {f : α → Except SettingsError β}

theorem bind_eq_ok_iff
    {b : β} :
    x >>= f = .ok b ↔ ∃ a, x = .ok a ∧ f a = .ok b := by
  cases x with
  | error e => exact ⟨nofun, fun ⟨_, h, _⟩ => nomatch h⟩
  | ok a => exact ⟨fun h => ⟨a, rfl, h⟩, fun ⟨_, ha, h⟩ => Except.ok.inj ha ▸ h⟩

theorem bind_eq_error_iff
    {e : SettingsError} :
    x >>= f = .error e ↔ x = .error e ∨ ∃ a, x = .ok a ∧ f a = .error e := by
  cases x with
  | error e' => simp [bind, Except.bind]
  | ok a => simp [bind, Except.bind]

end Readings

/-! ## Texts that may be missing -/

section Given

variable {α : Type} {k : SettingKind α} {parse : String → String → Except SettingsError α}
  {given : Option String} {source : String}

/-- What a text says if there is one. -/
def readGiven
    (given : Option String) (source : String)
    (parse : String → String → Except SettingsError α) : Except SettingsError (Option α) :=
  match given with
  | none => .ok none
  | some text => some <$> parse text source

theorem readGiven_eq_ok_iff
    (h : k.IsReadBy parse)
    {value? : Option α} :
    readGiven given source parse = .ok value? ↔ Option.Rel k.Means given value? := by
  cases given with
  | none =>
      cases value? <;> simp [readGiven]
  | some text =>
      cases hparse : parse text source <;> cases value? <;>
        simp [readGiven, ← h.ok_iff text source, hparse]

theorem readGiven_eq_error_iff
    (h : k.IsReadBy parse)
    {e : SettingsError} :
    readGiven given source parse = .error e ↔
      ∃ text, given = some text ∧ k.Complaint source text e := by
  cases given with
  | none =>
      simp [readGiven]
  | some text =>
      cases hparse : parse text source <;> simp [readGiven, ← h.error_iff, hparse]

end Given

theorem fromVariable_eq
    {α : Type} (env : Environment) (name : String)
    (parse : String → String → Except SettingsError α) :
    fromVariable env name parse = readGiven (env.lookup name) name parse := rfl

end Settings

/-! ## Environments -/

namespace Environment

open Settings

variable {α : Type} {env env' : Environment} {k : SettingKind α} {name : String} {l l' : Layer}
  {e : SettingsError}

/-- One environment with another over it.  Where both set a variable, the upper one counts. -/
def overriddenBy (env env' : Environment) : Environment :=
  env' ++ env

theorem lookup_overriddenBy
    (env env' : Environment) (name : String) :
    (env.overriddenBy env').lookup name = (env'.lookup name).or (env.lookup name) :=
  List.lookup_append

/-- The variables that say something about the settings. -/
def settingVariables : List String :=
  [traceVariable, limitVariable, logLevelVariable]

/-- The variable is not set, or its text stands for a value. -/
def IsValid (env : Environment) (k : SettingKind α) (name : String) : Prop :=
  ∀ text, env.lookup name = some text → ∃ value, k.Means text value

/-- All variables that say something about the settings are valid. -/
structure IsWellFormed (env : Environment) : Prop where
  trace : env.IsValid switchKind traceVariable
  stepLimit : env.IsValid limitKind limitVariable
  logLevel : env.IsValid levelKind logLevelVariable

/-- The complaint about the first variable, in the order trace, limit, level, that is not valid. -/
inductive FirstComplaint (env : Environment) (e : SettingsError) : Prop
  | trace
      {text : String}
      (htext : env.lookup traceVariable = some text)
      (h : switchKind.Complaint traceVariable text e)
  | stepLimit
      {text : String}
      (htrace : env.IsValid switchKind traceVariable)
      (htext : env.lookup limitVariable = some text)
      (h : limitKind.Complaint limitVariable text e)
  | logLevel
      {text : String}
      (htrace : env.IsValid switchKind traceVariable)
      (hlimit : env.IsValid limitKind limitVariable)
      (htext : env.lookup logLevelVariable = some text)
      (h : levelKind.Complaint logLevelVariable text e)

/-- The layer says what the variables stand for that are set. -/
structure IsLayer (env : Environment) (l : Layer) : Prop where
  trace : Option.Rel switchKind.Means (env.lookup traceVariable) l.trace
  stepLimit : Option.Rel limitKind.Means (env.lookup limitVariable) l.stepLimit
  logLevel : Option.Rel levelKind.Means (env.lookup logLevelVariable) l.logLevel
  logFile : l.logFile = none

/-- The layer that an environment is, if it is well formed. -/
def toLayer (env : Environment) : Except SettingsError Layer := do
  let trace ← fromVariable env traceVariable parseSwitch
  let stepLimit ← fromVariable env limitVariable parseStepLimit
  let logLevel ← fromVariable env logLevelVariable parseLevel
  return ⟨trace, stepLimit, logLevel, none⟩

theorem isValid_iff :
    env.IsValid k name ↔ ∃ value?, Option.Rel k.Means (env.lookup name) value? := by
  rw [IsValid]
  cases env.lookup name with
  | none =>
      exact ⟨fun _ => ⟨none, .none⟩, fun _ => nofun⟩
  | some text =>
      constructor
      · intro h
        obtain ⟨value, hvalue⟩ := h text rfl
        exact ⟨some value, .some hvalue⟩
      · rintro ⟨-, ⟨hvalue⟩⟩ text ⟨⟩
        exact ⟨_, hvalue⟩

theorem toLayer_eq_ok_iff :
    env.toLayer = .ok l ↔ env.IsLayer l := by
  simp only [toLayer, fromVariable_eq, bind_eq_ok_iff, readGiven_eq_ok_iff isReadBy_parseSwitch,
    readGiven_eq_ok_iff isReadBy_parseStepLimit, readGiven_eq_ok_iff isReadBy_parseLevel]
  constructor
  · rintro ⟨trace, htrace, stepLimit, hlimit, logLevel, hlevel, ⟨⟩⟩
    exact ⟨htrace, hlimit, hlevel, rfl⟩
  · rintro ⟨htrace, hlimit, hlevel, hfile⟩
    obtain ⟨trace, stepLimit, logLevel, logFile⟩ := l
    cases hfile
    exact ⟨trace, htrace, stepLimit, hlimit, logLevel, hlevel, rfl⟩

theorem toLayer_eq_error_iff :
    env.toLayer = .error e ↔ env.FirstComplaint e := by
  simp only [toLayer, fromVariable_eq, bind_eq_error_iff,
    readGiven_eq_ok_iff isReadBy_parseSwitch, readGiven_eq_ok_iff isReadBy_parseStepLimit,
    readGiven_eq_ok_iff isReadBy_parseLevel, readGiven_eq_error_iff isReadBy_parseSwitch,
    readGiven_eq_error_iff isReadBy_parseStepLimit, readGiven_eq_error_iff isReadBy_parseLevel]
  constructor
  · rintro (⟨text, htext, h⟩ | ⟨trace, htrace, ⟨text, htext, h⟩ | ⟨limit, hlimit,
        ⟨text, htext, h⟩ | ⟨-, -, ⟨⟩⟩⟩⟩)
    · exact .trace htext h
    · exact .stepLimit (isValid_iff.2 ⟨trace, htrace⟩) htext h
    · exact .logLevel (isValid_iff.2 ⟨trace, htrace⟩) (isValid_iff.2 ⟨limit, hlimit⟩) htext h
  · intro h
    cases h with
    | trace htext h =>
        exact Or.inl ⟨_, htext, h⟩
    | stepLimit htrace htext h =>
        obtain ⟨trace, htrace⟩ := isValid_iff.1 htrace
        exact Or.inr ⟨trace, htrace, Or.inl ⟨_, htext, h⟩⟩
    | logLevel htrace hlimit htext h =>
        obtain ⟨trace, htrace⟩ := isValid_iff.1 htrace
        obtain ⟨limit, hlimit⟩ := isValid_iff.1 hlimit
        exact Or.inr ⟨trace, htrace, Or.inr ⟨limit, hlimit, Or.inl ⟨_, htext, h⟩⟩⟩

theorem isWellFormed_iff :
    env.IsWellFormed ↔ ∃ l, env.IsLayer l := by
  constructor
  · rintro ⟨htrace, hlimit, hlevel⟩
    obtain ⟨trace, htrace⟩ := isValid_iff.1 htrace
    obtain ⟨stepLimit, hlimit⟩ := isValid_iff.1 hlimit
    obtain ⟨logLevel, hlevel⟩ := isValid_iff.1 hlevel
    exact ⟨⟨trace, stepLimit, logLevel, none⟩, htrace, hlimit, hlevel, rfl⟩
  · rintro ⟨l, h⟩
    exact ⟨isValid_iff.2 ⟨_, h.trace⟩, isValid_iff.2 ⟨_, h.stepLimit⟩,
      isValid_iff.2 ⟨_, h.logLevel⟩⟩

/-- What is said by one text before another, where either may be missing. -/
theorem rel_or
    {given below : Option String} {value? below? : Option α}
    (h : Option.Rel k.Means given value?)
    (hbelow : Option.Rel k.Means below below?) :
    Option.Rel k.Means (given.or below) (value?.or below?) := by
  cases h with
  | some hmeans => exact .some hmeans
  | none => exact hbelow

/-- An environment over another is their layers over each other. -/
theorem IsLayer.orElse
    (h : env.IsLayer l)
    (h' : env'.IsLayer l') :
    (env.overriddenBy env').IsLayer (l'.orElse l) where
  trace := by
    rw [lookup_overriddenBy]
    exact rel_or h'.trace h.trace
  stepLimit := by
    rw [lookup_overriddenBy]
    exact rel_or h'.stepLimit h.stepLimit
  logLevel := by
    rw [lookup_overriddenBy]
    exact rel_or h'.logLevel h.logLevel
  logFile := by
    rw [Layer.orElse, h.logFile, h'.logFile]
    rfl

/-- Other variables do not count. -/
theorem toLayer_congr
    (h : ∀ name ∈ settingVariables, env'.lookup name = env.lookup name) :
    env'.toLayer = env.toLayer := by
  simp only [settingVariables, List.forall_mem_cons, List.not_mem_nil, false_implies, implies_true,
    and_true] at h
  obtain ⟨htrace, hlimit, hlevel⟩ := h
  simp only [toLayer, fromVariable, htrace, hlimit, hlevel]

end Environment

/-! ## Flags -/

namespace Settings.Overrides

variable {o : Overrides} {l : Layer} {e : SettingsError}

/-- The layer says what the flags say that are given.  A log file without a name is not given. -/
structure IsLayer (o : Overrides) (l : Layer) : Prop where
  trace : l.trace = if o.trace then some true else none
  exists_text :
    ∃ text? : Option String,
      o.stepLimit = text?.map some ∧ Option.Rel limitKind.Means text? l.stepLimit
  logLevel : l.logLevel = if o.verbosity = 0 then none else some (verboseLevel o.verbosity)
  logFile : l.logFile = o.logFile.filter fun name => !name.isEmpty

/-- The complaint about flags whose limit is missing or malformed. -/
@[mk_iff]
inductive Complaint (o : Overrides) : SettingsError → Prop
  | missing
      (h : o.stepLimit = some none) :
      Complaint o .missingLimit
  | malformed
      {text : String} {e : SettingsError}
      (htext : o.stepLimit = some (some text))
      (h : limitKind.Complaint limitFlag text e) :
      Complaint o e

/-- What is said about the limit, if it is well formed. -/
def readLimit (o : Overrides) : Except SettingsError (Option (Option Nat)) :=
  match o.stepLimit with
  | none => .ok none
  | some none => .error .missingLimit
  | some (some text) => readGiven (some text) limitFlag parseStepLimit

/-- The layer that flags are, when this is said about the limit. -/
def layerWith (o : Overrides) (stepLimit : Option (Option Nat)) : Layer where
  trace := if o.trace then some true else none
  stepLimit := stepLimit
  logLevel := if o.verbosity = 0 then none else some (verboseLevel o.verbosity)
  logFile := o.logFile.filter fun name => !name.isEmpty

/-- The layer that flags are, if their limit is well formed. -/
def toLayer (o : Overrides) : Except SettingsError Layer :=
  o.readLimit.map o.layerWith

theorem readLimit_eq_ok_iff
    {value? : Option (Option Nat)} :
    o.readLimit = .ok value? ↔
      ∃ text? : Option String,
        o.stepLimit = text?.map some ∧ Option.Rel limitKind.Means text? value? := by
  rw [readLimit]
  split
  · next h =>
      cases value? <;> simp [h]
  · next h =>
      simp [h, eq_comm]
  · next text h =>
      rw [readGiven_eq_ok_iff isReadBy_parseStepLimit]
      simp [h, eq_comm]

theorem readLimit_eq_error_iff :
    o.readLimit = .error e ↔ o.Complaint e := by
  rw [readLimit, complaint_iff]
  split
  · next h =>
      simp [h]
  · next h =>
      simp [h, eq_comm]
  · next text h =>
      rw [readGiven_eq_error_iff isReadBy_parseStepLimit]
      simp [h, eq_comm]

theorem toLayer_eq_ok_iff :
    o.toLayer = .ok l ↔ o.IsLayer l := by
  have hlayer : o.toLayer = .ok l ↔ ∃ value?, o.readLimit = .ok value? ∧ o.layerWith value? = l := by
    rw [toLayer]
    cases o.readLimit <;> simp [Except.map]
  rw [hlayer]
  constructor
  · rintro ⟨value?, hlimit, rfl⟩
    exact ⟨rfl, readLimit_eq_ok_iff.1 hlimit, rfl, rfl⟩
  · rintro ⟨htrace, hlimit, hlevel, hfile⟩
    obtain ⟨trace, stepLimit, logLevel, logFile⟩ := l
    cases htrace
    cases hlevel
    cases hfile
    exact ⟨stepLimit, readLimit_eq_ok_iff.2 hlimit, rfl⟩

theorem toLayer_eq_error_iff :
    o.toLayer = .error e ↔ o.Complaint e := by
  rw [← readLimit_eq_error_iff, toLayer]
  cases o.readLimit <;> simp [Except.map]

/-- Flags over settings, field by field. -/
theorem applyTo_layerWith
    (o : Overrides) (stepLimit : Option (Option Nat)) (s : Settings) :
    (o.layerWith stepLimit).applyTo s = {
      trace := o.trace || s.trace
      stepLimit := (stepLimit.map (Option.map Int.ofNat)).getD s.stepLimit
      logLevel := if o.verbosity = 0 then s.logLevel else verboseLevel o.verbosity
      logFile := match o.logFile with
        | some name => if name.isEmpty then s.logFile else some name
        | none => s.logFile } := by
  obtain ⟨trace, limit, verbosity, file⟩ := o
  have htrace : (if trace then some true else none).getD s.trace = (trace || s.trace) := by
    cases trace <;> rfl
  have hlevel : (if verbosity = 0 then none else some (verboseLevel verbosity)).getD s.logLevel =
      if verbosity = 0 then s.logLevel else verboseLevel verbosity := by
    split <;> rfl
  have hfile : (file.filter fun name => !name.isEmpty).or s.logFile = match file with
      | some name => if name.isEmpty then s.logFile else some name
      | none => s.logFile := by
    cases file with
    | none => rfl
    | some name => cases hempty : name.isEmpty <;> simp [Option.filter, hempty]
  simp only [layerWith, Layer.applyTo, htrace, hlevel, hfile]

end Settings.Overrides

/-! ## Settings -/

namespace Settings

variable {s s' : Settings} {env : Environment} {o : Overrides} {e : SettingsError}

theorem applyEnvironment_eq
    (s : Settings) (env : Environment) :
    s.applyEnvironment env = env.toLayer.map fun l => l.applyTo s := by
  rw [applyEnvironment, Environment.toLayer]
  cases fromVariable env traceVariable parseSwitch with
  | error e => rfl
  | ok trace =>
      cases fromVariable env limitVariable parseStepLimit with
      | error e => rfl
      | ok stepLimit =>
          cases fromVariable env logLevelVariable parseLevel with
          | error e => rfl
          | ok logLevel => cases stepLimit <;> rfl

theorem applyOverrides_eq
    (s : Settings) (o : Overrides) :
    s.applyOverrides o = o.toLayer.map fun l => l.applyTo s := by
  rw [applyOverrides, Overrides.toLayer, Overrides.readLimit]
  rcases o.stepLimit with - | - | text
  · exact congrArg Except.ok (o.applyTo_layerWith none s).symm
  · rfl
  · simp only [readGiven]
    cases parseStepLimit text limitFlag with
    | error e => rfl
    | ok limit => exact congrArg Except.ok (o.applyTo_layerWith (some limit) s).symm

theorem applyEnvironment_eq_ok_iff :
    s.applyEnvironment env = .ok s' ↔ ∃ l, env.IsLayer l ∧ s' = l.applyTo s := by
  simp only [applyEnvironment_eq, ← Environment.toLayer_eq_ok_iff]
  cases env.toLayer <;> simp [Except.map, eq_comm]

theorem applyEnvironment_eq_error_iff :
    s.applyEnvironment env = .error e ↔ env.FirstComplaint e := by
  simp only [applyEnvironment_eq, ← Environment.toLayer_eq_error_iff]
  cases env.toLayer <;> simp [Except.map]

theorem ofSources_eq
    (env : Environment) (o : Overrides) :
    ofSources env o = do
      let environment ← env.toLayer
      let flags ← o.toLayer
      return (flags.orElse environment).applyTo default := by
  rw [ofSources, applyEnvironment_eq]
  cases env.toLayer with
  | error e => rfl
  | ok environment =>
      show (environment.applyTo default).applyOverrides o = _
      rw [applyOverrides_eq]
      cases hflags : o.toLayer with
      | error e => rfl
      | ok flags => exact congrArg Except.ok (flags.applyTo_orElse environment default).symm

theorem ofSources_eq_ok_iff :
    ofSources env o = .ok s ↔
      ∃ environment flags : Layer,
        env.IsLayer environment ∧ o.IsLayer flags ∧
          s = (flags.orElse environment).applyTo default := by
  simp only [ofSources_eq, bind_eq_ok_iff, Environment.toLayer_eq_ok_iff,
    Overrides.toLayer_eq_ok_iff]
  constructor
  · rintro ⟨environment, henv, flags, hflags, ⟨⟩⟩
    exact ⟨environment, flags, henv, hflags, rfl⟩
  · rintro ⟨environment, flags, henv, hflags, rfl⟩
    exact ⟨environment, henv, flags, hflags, rfl⟩

theorem ofSources_eq_error_iff :
    ofSources env o = .error e ↔ env.FirstComplaint e ∨ env.IsWellFormed ∧ o.Complaint e := by
  simp only [ofSources_eq, bind_eq_error_iff, Environment.toLayer_eq_ok_iff,
    Environment.toLayer_eq_error_iff, Overrides.toLayer_eq_error_iff,
    Environment.isWellFormed_iff]
  constructor
  · rintro (h | ⟨environment, henv, h | ⟨-, -, ⟨⟩⟩⟩)
    · exact Or.inl h
    · exact Or.inr ⟨⟨environment, henv⟩, h⟩
  · rintro (h | ⟨⟨environment, henv⟩, h⟩)
    · exact Or.inl h
    · exact Or.inr ⟨environment, henv, Or.inl h⟩

/-- No source limits the steps to none at all. -/
theorem exists_stepLimit_of_ofSources
    (h : ofSources env o = .ok s) :
    ∃ limit : Option Nat, s.stepLimit = limit.map Int.ofNat ∧ limit ≠ some 0 := by
  obtain ⟨environment, flags, henv, hflags, rfl⟩ := ofSources_eq_ok_iff.1 h
  obtain ⟨text?, -, hlimit⟩ := hflags.exists_text
  have hboth := Environment.rel_or hlimit henv.stepLimit
  simp only [Layer.applyTo, Layer.orElse]
  generalize text?.or (env.lookup limitVariable) = given,
    flags.stepLimit.or environment.stepLimit = value? at hboth
  cases hboth with
  | none => exact ⟨none, rfl, nofun⟩
  | some hmeans => exact ⟨_, rfl, hmeans.ne_zero⟩

/-- The flags for tracing and verbosity leave the limit and the log file alone. -/
theorem exists_ofSources_of_trace_verbosity
    (h : ofSources env o = .ok s)
    (trace : Bool) (verbosity : Nat) :
    ∃ s', ofSources env { o with trace := trace, verbosity := verbosity } = .ok s' ∧
      s'.stepLimit = s.stepLimit ∧ s'.logFile = s.logFile := by
  obtain ⟨environment, flags, henv, hflags, rfl⟩ := ofSources_eq_ok_iff.1 h
  let flags' : Layer :=
    { flags with
      trace := if trace then some true else none
      logLevel := if verbosity = 0 then none else some (verboseLevel verbosity) }
  have hflags' : Overrides.IsLayer { o with trace := trace, verbosity := verbosity } flags' :=
    ⟨rfl, hflags.exists_text, rfl, hflags.logFile⟩
  exact ⟨_, ofSources_eq_ok_iff.2 ⟨environment, flags', henv, hflags', rfl⟩, rfl, rfl⟩

/-- A limit that a flag takes away does not come back from the environment. -/
theorem exists_ofSources_of_no_limit
    {text : String}
    (henv : env.IsWellFormed)
    (htext : o.stepLimit = some (some text))
    (h : limitKind.Means text none) :
    ∃ s, ofSources env o = .ok s ∧ s.stepLimit = none := by
  obtain ⟨environment, hlayer⟩ := Environment.isWellFormed_iff.1 henv
  have hflags : o.IsLayer (o.layerWith (some none)) :=
    ⟨rfl, ⟨some text, htext, .some h⟩, rfl, rfl⟩
  exact ⟨_, ofSources_eq_ok_iff.2 ⟨environment, _, hlayer, hflags, rfl⟩, rfl⟩

/-- The layers, field by field.  The environment says nothing about a log file. -/
theorem applyTo_orElse_default
    {environment : Layer}
    (h : env.IsLayer environment)
    (flags : Layer) :
    (flags.orElse environment).applyTo default = {
      trace := (flags.trace.or environment.trace).getD false
      stepLimit := ((flags.stepLimit.or environment.stepLimit).getD none).map Int.ofNat
      logLevel := (flags.logLevel.or environment.logLevel).getD warningLevel
      logFile := flags.logFile } := by
  have hlimit : ∀ limit : Option (Option Nat),
      (limit.map (Option.map Int.ofNat)).getD none = (limit.getD none).map Int.ofNat := by
    intro limit
    cases limit <;> rfl
  simp only [Layer.applyTo, Layer.orElse, default, hlimit, h.logFile, Option.or_none]

/-- **Settings are made of layers.**  An environment over another is one environment, whose upper
variables count, and one that is applied twice is applied once.  Nothing but the three variables
counts, and the log file is not concerned.  An environment is refused exactly if one of its three
variables is malformed, with the complaint about the first of these and whatever the settings below
it are.  Flags over an environment over the defaults give every setting the value of the uppermost
layer that says something about it; a flag can take away the limit that the environment sets, and a
log file without a name is not given.  A malformed environment is an error whatever the flags say. -/
theorem layers_compose
    (s : Settings) (env : Environment) :
    (∀ env' : Environment, env.IsWellFormed → env'.IsWellFormed →
      ∃ s₁ s₂, s.applyEnvironment env = .ok s₁ ∧ s₁.applyEnvironment env' = .ok s₂ ∧
        s.applyEnvironment (env.overriddenBy env') = .ok s₂) ∧
    (env.IsWellFormed →
      ∃ s₁, s.applyEnvironment env = .ok s₁ ∧ s₁.applyEnvironment env = .ok s₁) ∧
    (∀ env' : Environment,
      (∀ name ∈ Environment.settingVariables, env'.lookup name = env.lookup name) →
      s.applyEnvironment env' = s.applyEnvironment env) ∧
    (∀ s', s.applyEnvironment env = .ok s' → s'.logFile = s.logFile) ∧
    ((∃ e, s.applyEnvironment env = .error e) ↔ ¬ env.IsWellFormed) ∧
    (∀ e, s.applyEnvironment env = .error e ↔ env.FirstComplaint e) ∧
    (∀ o s', ofSources env o = .ok s' ↔
      ∃ environment flags : Layer, env.IsLayer environment ∧ o.IsLayer flags ∧
        s' = {
          trace := (flags.trace.or environment.trace).getD false
          stepLimit := ((flags.stepLimit.or environment.stepLimit).getD none).map Int.ofNat
          logLevel := (flags.logLevel.or environment.logLevel).getD warningLevel
          logFile := flags.logFile }) ∧
    (∀ o text, env.IsWellFormed → o.stepLimit = some (some text) → limitKind.Means text none →
      ∃ s', ofSources env o = .ok s' ∧ s'.stepLimit = none) ∧
    (∀ o : Overrides,
      ofSources env { o with logFile := some "" } = ofSources env { o with logFile := none }) ∧
    (∀ o e, ofSources env o = .error e ↔
      env.FirstComplaint e ∨ env.IsWellFormed ∧ o.Complaint e) := by
  refine ⟨?_, ?_, ?_, ?_, ?_, fun e => applyEnvironment_eq_error_iff, ?_,
    fun o text henv => exists_ofSources_of_no_limit henv, fun o => rfl,
    fun o e => ofSources_eq_error_iff⟩
  · intro env' henv henv'
    obtain ⟨l, hl⟩ := Environment.isWellFormed_iff.1 henv
    obtain ⟨l', hl'⟩ := Environment.isWellFormed_iff.1 henv'
    refine ⟨l.applyTo s, l'.applyTo (l.applyTo s), applyEnvironment_eq_ok_iff.2 ⟨l, hl, rfl⟩,
      applyEnvironment_eq_ok_iff.2 ⟨l', hl', rfl⟩, ?_⟩
    exact applyEnvironment_eq_ok_iff.2 ⟨l'.orElse l, hl.orElse hl', (l'.applyTo_orElse l s).symm⟩
  · intro henv
    obtain ⟨l, hl⟩ := Environment.isWellFormed_iff.1 henv
    refine ⟨l.applyTo s, applyEnvironment_eq_ok_iff.2 ⟨l, hl, rfl⟩,
      applyEnvironment_eq_ok_iff.2 ⟨l, hl, ?_⟩⟩
    rw [← Layer.applyTo_orElse, Layer.orElse_self]
  · intro env' h
    rw [applyEnvironment_eq, applyEnvironment_eq, Environment.toLayer_congr h]
  · intro s' h
    obtain ⟨l, hl, rfl⟩ := applyEnvironment_eq_ok_iff.1 h
    rw [Layer.applyTo, hl.logFile, Option.none_or]
  · rw [Environment.isWellFormed_iff]
    simp only [applyEnvironment_eq, ← Environment.toLayer_eq_ok_iff]
    cases env.toLayer <;> simp [Except.map]
  · intro o s'
    rw [ofSources_eq_ok_iff]
    constructor
    · rintro ⟨environment, flags, henv, hflags, rfl⟩
      exact ⟨environment, flags, henv, hflags, applyTo_orElse_default henv flags⟩
    · rintro ⟨environment, flags, henv, hflags, rfl⟩
      exact ⟨environment, flags, henv, hflags, (applyTo_orElse_default henv flags).symm⟩

/-- The upper environment takes away the limit of the lower one, and so does a flag.  Of two
malformed variables the one for tracing is reported, although it comes last. -/
theorem layers_compose_limit_taken_away :
    let s : Settings := ⟨true, some 7, 10, some "run.log"⟩
    let env : Environment := [("BVM_TRACE", " Off"), ("HOME", "/"), ("BVM_MAX_STEPS", "0x1F")]
    let env' : Environment := [("BVM_MAX_STEPS", ""), ("BVM_LOG_LEVEL", "\u0131nfo")]
    let malformed : Environment := [("BVM_LOG_LEVEL", "LOUD"), ("BVM_TRACE", "maybe")]
    let o : Overrides := ⟨true, some (some "0"), 2, some ""⟩
    env.IsWellFormed ∧ env'.IsWellFormed ∧
    s.applyEnvironment env = .ok ⟨false, some 31, 10, some "run.log"⟩ ∧
    s.applyEnvironment (env.overriddenBy env') = .ok ⟨false, none, 20, some "run.log"⟩ ∧
    (∃ s', ofSources env o = .ok s' ∧ s'.stepLimit = none) ∧
    ¬ malformed.IsWellFormed ∧
    ofSources malformed o = .error (.notABoolean "BVM_TRACE" "maybe") := by
  intro s env env' malformed o
  let s₁ : Settings := ⟨false, some 31, 10, some "run.log"⟩
  let s₂ : Settings := ⟨false, none, 20, some "run.log"⟩
  have hfirst : s.applyEnvironment env = .ok s₁ := by decide +kernel
  have hsecond : s₁.applyEnvironment env' = .ok s₂ := by decide +kernel
  have hnone : limitKind.Means "0" none :=
    (isReadBy_parseStepLimit.ok_iff "0" limitFlag none).1 (by decide +kernel)
  have hrefused : s.applyEnvironment malformed = .error (.notABoolean "BVM_TRACE" "maybe") := by
    decide +kernel
  obtain ⟨hcompose, -, -, -, hfails, -, -, hremoves, -, -⟩ := layers_compose s env
  obtain ⟨-, -, -, -, hfails', hcomplaint, -, -, -, herror⟩ := layers_compose s malformed
  have henv : env.IsWellFormed := by
    by_contra h
    obtain ⟨e, he⟩ := hfails.2 h
    rw [hfirst] at he
    cases he
  have henv' : env'.IsWellFormed :=
    Environment.isWellFormed_iff.2 ((applyEnvironment_eq_ok_iff.1 hsecond).imp fun _ h => h.1)
  obtain ⟨s₁', s₂', hfirst', hsecond', hboth⟩ := hcompose env' henv henv'
  obtain rfl : s₁ = s₁' := Except.ok.inj (hfirst.symm.trans hfirst')
  obtain rfl : s₂ = s₂' := Except.ok.inj (hsecond.symm.trans hsecond')
  exact ⟨henv, henv', hfirst, hboth, hremoves o "0" henv rfl hnone,
    hfails'.1 ⟨_, hrefused⟩, (herror o _).2 (Or.inl ((hcomplaint _).1 hrefused))⟩

end Settings

end StackMachine
