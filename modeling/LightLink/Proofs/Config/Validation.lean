import LightLink.Config.Description

/-!
# Which descriptions are valid

A description is turned into a configuration exactly if nothing is wrong with it. What a description
stands for, and which of its faults comes first, is said here without the checks:

* `OutputDescription.Valid`, `OutputDescription.Describes`, `OutputDescription.FirstFault`: when an
  output can be set up, the set-up that its description stands for, and the first fault in it;
* `OutputDescription.Kind`: the type of an output and the name by which a fault calls it;
* `OutputDescription.setup_of_describes`, `OutputDescription.setup_of_firstFault`: what the checks of
  one output come to;
* `OutputDescription.outputsFrom_of_describes`, `OutputDescription.outputsFrom_of_firstFault`: those
  of all outputs, by induction on them;
* `ModuleDescription.validate_exact`: those of a whole description.
-/

namespace LightLink

/-! ## Lengths and levels -/

section Rows

variable {α : Type} {n : Nat} {values : List α}

theorem exactRow_toList (field : String) (r : Row α n) : exactRow n field r.toList = .ok r := by
  rw [exactRow, Row.ofList?_toList]

theorem exactRow_of_length_ne (field : String) (h : values.length ≠ n) :
    exactRow n field values = .error (.wrongLength field n values.length) := by
  rw [exactRow, Row.ofList?, dif_neg h]

end Rows

/-- The first level above 15 stands at position `i` and is `v`. -/
def FirstExcess (levels : List UInt8) (i : Nat) (v : UInt8) : Prop :=
  levels[i]? = some v ∧ 15 < v ∧ ∀ l ∈ levels.take i, l ≤ 15

section Levels

variable {levels : List UInt8}

theorem firstExcess_of_le (h : ∀ l ∈ levels, l ≤ 15) : firstExcess levels = none := by
  unfold firstExcess
  rw [Option.map_eq_none_iff, List.find?_eq_none]
  intro p mem above
  exact UInt8.not_lt.mpr (h p.1 (List.fst_mem_of_mem_zipIdx mem)) (of_decide_eq_true above)

/-- Where a level is above 15 there is a first one. -/
theorem exists_firstExcess (h : ¬ ∀ l ∈ levels, l ≤ 15) : ∃ i v, FirstExcess levels i v := by
  induction levels with
  | nil => exact absurd nofun h
  | cons l levels ih =>
    by_cases low : l ≤ 15
    · obtain ⟨i, v, there, above, before⟩ := ih fun all => h (List.forall_mem_cons.mpr ⟨low, all⟩)
      exact ⟨i + 1, v, there, above, List.forall_mem_cons.mpr ⟨low, before⟩⟩
    · exact ⟨0, l, rfl, UInt8.not_le.mp low, nofun⟩

theorem firstExcess_eq_some {i : Nat} {v : UInt8} (h : FirstExcess levels i v) :
    firstExcess levels = some (i, v) := by
  obtain ⟨there, above, before⟩ := h
  obtain ⟨lt, rfl⟩ := List.getElem?_eq_some_iff.mp there
  have found : levels.zipIdx.find? (fun p => maxThreshold < p.1) = some (levels[i], i) := by
    refine List.find?_eq_some_iff_getElem.mpr
      ⟨decide_eq_true above, i, by rwa [List.length_zipIdx], by simp, fun j j_lt => ?_⟩
    have le := before levels[j] (List.mem_take_iff_getElem.mpr ⟨j, by omega, rfl⟩)
    rw [List.getElem_zipIdx, Bool.not_eq_true', decide_eq_false_iff_not]
    exact UInt8.not_lt.mpr le
  rw [firstExcess, found]
  rfl

theorem checkThresholds_of_le (field : String) {r : Row UInt8 12} (h : ∀ l ∈ r.toList, l ≤ 15) :
    checkThresholds field r = .ok () := by
  rw [checkThresholds, firstExcess_of_le h]

theorem checkThresholds_of_firstExcess (field : String) {r : Row UInt8 12} {i : Nat} {v : UInt8}
    (h : FirstExcess r.toList i v) :
    checkThresholds field r = .error (.thresholdOutOfRange field i v) := by
  rw [checkThresholds, firstExcess_eq_some h]

end Levels

/-! ### Threshold bytes -/

/-- The number that a threshold byte is. -/
theorem toNat_packThreshold {release trigger : UInt8} (hr : release ≤ 15) (ht : trigger ≤ 15) :
    (packThreshold release trigger).toNat = release.toNat * 16 + trigger.toNat := by
  have release_lt : release.toNat < 16 := Nat.lt_succ_of_le (UInt8.le_iff_toNat_le.mp hr)
  have trigger_lt : trigger.toNat < 2 ^ 4 := Nat.lt_succ_of_le (UInt8.le_iff_toNat_le.mp ht)
  have shifted : (release <<< 4).toNat = release.toNat <<< 4 := by
    rw [UInt8.toNat_shiftLeft]
    show release.toNat <<< 4 % 256 = _
    rw [Nat.shiftLeft_eq]
    exact Nat.mod_eq_of_lt (by omega)
  rw [packThreshold, UInt8.toNat_or, shifted, ← Nat.shiftLeft_add_eq_or_of_lt trigger_lt,
    Nat.shiftLeft_eq]

/-- The halves of a threshold byte. -/
theorem packThreshold_halves {release trigger : UInt8} (hr : release ≤ 15) (ht : trigger ≤ 15) :
    packThreshold release trigger % 16 = trigger ∧ packThreshold release trigger / 16 = release := by
  have whole := toNat_packThreshold hr ht
  have trigger_le := UInt8.le_iff_toNat_le.mp ht
  change trigger.toNat ≤ 15 at trigger_le
  constructor <;> apply UInt8.toNat_inj.mp
  · rw [UInt8.toNat_mod, whole]
    show (release.toNat * 16 + trigger.toNat) % 16 = _
    omega
  · rw [UInt8.toNat_div, whole]
    show (release.toNat * 16 + trigger.toNat) / 16 = _
    omega

/-- Every byte is packed from its halves, and these are levels. -/
theorem packThreshold_of_halves (b : UInt8) :
    b % 16 ≤ 15 ∧ b / 16 ≤ 15 ∧ packThreshold (b / 16) (b % 16) = b := by
  have lt := b.toNat_lt
  have low : b % 16 ≤ 15 := by
    rw [UInt8.le_iff_toNat_le, UInt8.toNat_mod]
    show b.toNat % 16 ≤ 15
    omega
  have high : b / 16 ≤ 15 := by
    rw [UInt8.le_iff_toNat_le, UInt8.toNat_div]
    show b.toNat / 16 ≤ 15
    omega
  refine ⟨low, high, UInt8.toNat_inj.mp ?_⟩
  rw [toNat_packThreshold high low, UInt8.toNat_mod, UInt8.toNat_div]
  show b.toNat / 16 * 16 + b.toNat % 16 = _
  omega

/-! ## One output -/

namespace OutputDescription

/-- An output can be set up as it is described. -/
def Valid : OutputDescription → Prop
  | rgb pins values => pins.length = 3 ∧ values.length = 3
  | program values => values.length ≤ 12
  | mpr121 _ _ trigger release => (trigger.length = 12 ∧ release.length = 12) ∧
      (∀ l ∈ trigger, l ≤ 15) ∧ ∀ l ∈ release, l ≤ 15
  | _ => True

/-- The set-up that a description stands for. -/
inductive Describes : OutputDescription → OutputSetup → Prop where
  | value (pin : UInt8) (v : Int16) : Describes (.value pin v) (.value pin v)
  | rgb (pins values : Row UInt8 3) : Describes (.rgb pins.toList values.toList) (.rgb pins values)
  /-- Missing values are zero. -/
  | program {values : List Int16} {row : Row Int16 12}
    (padded : row.toList = values ++ .replicate (12 - values.length) 0) :
    Describes (.program values) (.program row)
  | pixels (clock data : UInt8) (n : UInt16) (t : UInt8) :
    Describes (.pixels clock data n t) (.pixels clock data n t)
  /-- The low halves of the bytes are the trigger levels, the high ones the release levels. -/
  | mpr121 (irq : UInt8) (useInterrupt : Bool) {trigger release : List UInt8} {row : Row UInt8 12}
    (low : row.toList.map (· % 16) = trigger) (high : row.toList.map (· / 16) = release) :
    Describes (.mpr121 irq useInterrupt trigger release) (.mpr121 irq useInterrupt row)
  | rs485 (recv xmit enable : UInt8) : Describes (.rs485 recv xmit enable) (.rs485 recv xmit enable)
  | xbee (recv xmit : UInt8) : Describes (.xbee recv xmit) (.xbee recv xmit)

/-- The type of an output, and its name. -/
inductive Kind : OutputDescription → OutputType → String → Prop where
  | value (pin : UInt8) (v : Int16) : Kind (.value pin v) .value "value"
  | rgb (pins values : List UInt8) : Kind (.rgb pins values) .rgb "rgb"
  | program (values : List Int16) : Kind (.program values) .program "program"
  | pixels (clock data : UInt8) (n : UInt16) (t : UInt8) :
    Kind (.pixels clock data n t) .pixels "pixels"
  | mpr121 (irq : UInt8) (useInterrupt : Bool) (trigger release : List UInt8) :
    Kind (.mpr121 irq useInterrupt trigger release) .mpr121 "mpr121"
  | rs485 (recv xmit enable : UInt8) : Kind (.rs485 recv xmit enable) .rs485 "rs485"
  | xbee (recv xmit : UInt8) : Kind (.xbee recv xmit) .xbee "xbee"

/-- The fault that comes first in a description: lengths before levels, and of two lists the one
that is written first. -/
inductive FirstFault : OutputDescription → SetupError → Prop where
  | pins {pins values : List UInt8} (wrong : pins.length ≠ 3) :
    FirstFault (.rgb pins values) (.wrongLength "pins" 3 pins.length)
  | values {pins values : List UInt8} (fits : pins.length = 3) (wrong : values.length ≠ 3) :
    FirstFault (.rgb pins values) (.wrongLength "values" 3 values.length)
  | program {values : List Int16} (wrong : 12 < values.length) :
    FirstFault (.program values) (.tooManyValues "values" 12 values.length)
  | triggerLength {irq : UInt8} {useInterrupt : Bool} {trigger release : List UInt8}
    (wrong : trigger.length ≠ 12) :
    FirstFault (.mpr121 irq useInterrupt trigger release)
      (.wrongLength "trigger" 12 trigger.length)
  | releaseLength {irq : UInt8} {useInterrupt : Bool} {trigger release : List UInt8}
    (fits : trigger.length = 12) (wrong : release.length ≠ 12) :
    FirstFault (.mpr121 irq useInterrupt trigger release)
      (.wrongLength "release" 12 release.length)
  | triggerLevel {irq : UInt8} {useInterrupt : Bool} {trigger release : List UInt8} {i : Nat}
    {v : UInt8} (fit : trigger.length = 12 ∧ release.length = 12)
    (wrong : FirstExcess trigger i v) :
    FirstFault (.mpr121 irq useInterrupt trigger release) (.thresholdOutOfRange "trigger" i v)
  | releaseLevel {irq : UInt8} {useInterrupt : Bool} {trigger release : List UInt8} {i : Nat}
    {v : UInt8} (fit : trigger.length = 12 ∧ release.length = 12)
    (low : ∀ l ∈ trigger, l ≤ 15) (wrong : FirstExcess release i v) :
    FirstFault (.mpr121 irq useInterrupt trigger release) (.thresholdOutOfRange "release" i v)

variable {o : OutputDescription} {t : OutputType} {name : String}

theorem Kind.type_eq (h : o.Kind t name) : o.type = t := by
  cases h <;> rfl

theorem Kind.kindName_eq (h : o.Kind t name) : t.kindName = name := by
  cases h <;> rfl

/-- Every output has a kind. -/
theorem exists_kind (o : OutputDescription) : ∃ t name, o.Kind t name := by
  cases o with
  | value pin v => exact ⟨_, _, .value pin v⟩
  | rgb pins values => exact ⟨_, _, .rgb pins values⟩
  | program values => exact ⟨_, _, .program values⟩
  | pixels clock data n t => exact ⟨_, _, .pixels clock data n t⟩
  | mpr121 irq useInterrupt trigger release =>
    exact ⟨_, _, .mpr121 irq useInterrupt trigger release⟩
  | rs485 recv xmit enable => exact ⟨_, _, .rs485 recv xmit enable⟩
  | xbee recv xmit => exact ⟨_, _, .xbee recv xmit⟩

/-- Levels are the halves of the bytes that they are packed into. -/
theorem halves_of_levels {trigger release : List UInt8} (length : trigger.length = release.length)
    (ht : ∀ l ∈ trigger, l ≤ 15) (hr : ∀ l ∈ release, l ≤ 15) :
    (List.zipWith packThreshold release trigger).map (· % 16) = trigger ∧
      (List.zipWith packThreshold release trigger).map (· / 16) = release := by
  induction trigger generalizing release with
  | nil =>
    obtain rfl : release = [] := List.length_eq_zero_iff.mp length.symm
    exact ⟨rfl, rfl⟩
  | cons t trigger ih =>
    cases release with
    | nil => cases length
    | cons r release =>
      obtain ⟨ht, hts⟩ := List.forall_mem_cons.mp ht
      obtain ⟨hr, hrs⟩ := List.forall_mem_cons.mp hr
      obtain ⟨low, high⟩ := packThreshold_halves hr ht
      obtain ⟨lows, highs⟩ := ih (Nat.succ.inj length) hts hrs
      rw [List.zipWith_cons_cons, List.map_cons, List.map_cons, low, high, lows, highs]
      exact ⟨rfl, rfl⟩

/-- What can be set up stands for some set-up. -/
theorem Valid.exists_describes (h : o.Valid) : ∃ s, o.Describes s := by
  cases o with
  | value pin v => exact ⟨_, .value pin v⟩
  | rgb pins values => exact ⟨_, .rgb ⟨pins, h.1⟩ ⟨values, h.2⟩⟩
  | program values => exact ⟨.program (.padded 12 values 0 h), .program rfl⟩
  | pixels clock data n t => exact ⟨_, .pixels clock data n t⟩
  | mpr121 irq useInterrupt trigger release =>
    obtain ⟨⟨trigger_length, release_length⟩, ht, hr⟩ := h
    obtain ⟨low, high⟩ := halves_of_levels (trigger_length.trans release_length.symm) ht hr
    have twelve : (List.zipWith packThreshold release trigger).length = 12 := by
      rw [List.length_zipWith, trigger_length, release_length]
      rfl
    exact ⟨.mpr121 irq useInterrupt ⟨_, twelve⟩, .mpr121 irq useInterrupt low high⟩
  | rs485 recv xmit enable => exact ⟨_, .rs485 recv xmit enable⟩
  | xbee recv xmit => exact ⟨_, .xbee recv xmit⟩

/-- What cannot has a first fault. -/
theorem exists_firstFault (h : ¬ o.Valid) : ∃ e, o.FirstFault e := by
  cases o with
  | rgb pins values =>
    by_cases fits : pins.length = 3
    · exact ⟨_, .values fits fun fits' => h ⟨fits, fits'⟩⟩
    · exact ⟨_, .pins fits⟩
  | program values => exact ⟨_, .program (Nat.lt_of_not_le h)⟩
  | mpr121 irq useInterrupt trigger release =>
    by_cases fits : trigger.length = 12
    · by_cases fits' : release.length = 12
      · by_cases low : ∀ l ∈ trigger, l ≤ 15
        · obtain ⟨i, v, first⟩ := exists_firstExcess fun low' => h ⟨⟨fits, fits'⟩, low, low'⟩
          exact ⟨_, .releaseLevel ⟨fits, fits'⟩ low first⟩
        · obtain ⟨i, v, first⟩ := exists_firstExcess low
          exact ⟨_, .triggerLevel ⟨fits, fits'⟩ first⟩
      · exact ⟨_, .releaseLength fits fits'⟩
    · exact ⟨_, .triggerLength fits⟩
  | value | pixels | rs485 | xbee => exact absurd trivial h

/-- The threshold bytes with these halves are the ones that are packed. -/
theorem packThresholds_of_halves (row : Row UInt8 12) :
    packThresholds (row.toList.map (· % 16)) (row.toList.map (· / 16)) = .ok row := by
  let trigger : Row UInt8 12 := ⟨row.toList.map (· % 16), by rw [List.length_map, row.length_toList]⟩
  let release : Row UInt8 12 := ⟨row.toList.map (· / 16), by rw [List.length_map, row.length_toList]⟩
  have low : ∀ l ∈ trigger.toList, l ≤ 15 := List.forall_mem_map.mpr fun b _ =>
    (packThreshold_of_halves b).1
  have high : ∀ l ∈ release.toList, l ≤ 15 := List.forall_mem_map.mpr fun b _ =>
    (packThreshold_of_halves b).2.1
  have packed : release.zipWith packThreshold trigger = row := by
    apply Row.ext
    show List.zipWith packThreshold (row.toList.map (· / 16)) (row.toList.map (· % 16)) = _
    rw [List.zipWith_map, List.zipWith_self]
    exact (List.map_congr_left fun b _ => (packThreshold_of_halves b).2.2).trans (List.map_id _)
  unfold packThresholds
  rw [exactRow_toList "trigger" trigger, exactRow_toList "release" release]
  show (checkThresholds "trigger" trigger >>= fun _ => checkThresholds "release" release >>= fun _ =>
    .ok (release.zipWith packThreshold trigger)) = _
  rw [checkThresholds_of_le _ low, checkThresholds_of_le _ high, packed]
  rfl

/-- An output is set up as it is described. -/
theorem setup_of_describes {s : OutputSetup} (h : o.Describes s) : o.setup = .ok s := by
  cases h with
  | rgb pins values =>
    rw [setup, exactRow_toList, exactRow_toList]
    rfl
  | @program values row padded =>
    have length : values.length + (12 - values.length) = 12 := by
      rw [← row.length_toList, padded, List.length_append, List.length_replicate]
      omega
    rw [setup, dif_pos (by omega)]
    exact congrArg (Except.ok ∘ OutputSetup.program) (Row.ext padded.symm)
  | mpr121 irq useInterrupt low high =>
    rw [setup, ← low, ← high, packThresholds_of_halves]
    rfl
  | value | pixels | rs485 | xbee => rfl

/-- The first fault of an output is the one that is reported. -/
theorem setup_of_firstFault {e : SetupError} (h : o.FirstFault e) : o.setup = .error e := by
  cases h with
  | pins wrong =>
    rw [setup, exactRow_of_length_ne _ wrong]
    rfl
  | @values pins values fits wrong =>
    rw [setup, show exactRow 3 "pins" pins = _ from exactRow_toList "pins" ⟨pins, fits⟩,
      exactRow_of_length_ne _ wrong]
    rfl
  | program wrong => rw [setup, dif_neg (Nat.not_le_of_lt wrong)]
  | triggerLength wrong =>
    rw [setup, packThresholds, exactRow_of_length_ne _ wrong]
    rfl
  | @releaseLength irq useInterrupt trigger release fits wrong =>
    rw [setup, packThresholds,
      show exactRow 12 "trigger" trigger = _ from exactRow_toList "trigger" ⟨trigger, fits⟩,
      exactRow_of_length_ne _ wrong]
    rfl
  | @triggerLevel irq useInterrupt trigger release i v fit wrong =>
    have refused := checkThresholds_of_firstExcess "trigger" (r := ⟨trigger, fit.1⟩) wrong
    rw [setup, packThresholds,
      show exactRow 12 "trigger" trigger = _ from exactRow_toList "trigger" ⟨trigger, fit.1⟩,
      show exactRow 12 "release" release = _ from exactRow_toList "release" ⟨release, fit.2⟩]
    show _ <$> (checkThresholds "trigger" ⟨trigger, fit.1⟩ >>= _) = _
    rw [refused]
    rfl
  | @releaseLevel irq useInterrupt trigger release i v fit low wrong =>
    have passed := checkThresholds_of_le "trigger" (r := ⟨trigger, fit.1⟩) low
    have refused := checkThresholds_of_firstExcess "release" (r := ⟨release, fit.2⟩) wrong
    rw [setup, packThresholds,
      show exactRow 12 "trigger" trigger = _ from exactRow_toList "trigger" ⟨trigger, fit.1⟩,
      show exactRow 12 "release" release = _ from exactRow_toList "release" ⟨release, fit.2⟩]
    show _ <$> (checkThresholds "trigger" ⟨trigger, fit.1⟩ >>= fun _ =>
      checkThresholds "release" ⟨release, fit.2⟩ >>= _) = _
    rw [passed]
    show _ <$> (checkThresholds "release" ⟨release, fit.2⟩ >>= _) = _
    rw [refused]
    rfl

/-! ## All outputs -/

/-- Outputs that are set up one after the other as they are described, numbered from `k` on. -/
def DescribesFrom (k : Nat) (ds : List OutputDescription) (outputs : List OutputConfig) : Prop :=
  outputs.length = ds.length ∧ ∀ i (o : OutputDescription), ds[i]? = some o →
    ∃ x, outputs[i]? = some x ∧ x.index.toNat = k + i ∧ o.Describes x.setup

variable {ds : List OutputDescription}

/-- Outputs of which each can be set up stand for some set-ups, as far as their numbers reach. -/
theorem exists_describesFrom {k : Nat} (room : k + ds.length ≤ 256) (h : ∀ o ∈ ds, o.Valid) :
    ∃ outputs, DescribesFrom k ds outputs := by
  induction ds generalizing k with
  | nil => exact ⟨[], rfl, nofun⟩
  | cons o ds ih =>
    rw [List.length_cons] at room
    obtain ⟨first, rest⟩ := List.forall_mem_cons.mp h
    obtain ⟨s, described⟩ := first.exists_describes
    obtain ⟨outputs, length, each⟩ := ih (k := k + 1) (by omega) rest
    refine ⟨⟨UInt8.ofNat k, s⟩ :: outputs, congrArg Nat.succ length, fun i o' there => ?_⟩
    cases i with
    | zero =>
      obtain rfl := Option.some.inj there
      have small : k < 256 := by omega
      exact ⟨_, rfl, UInt8.toNat_ofNat_of_lt' small, described⟩
    | succ i =>
      obtain ⟨x, at_i, index, described⟩ := each i o' there
      exact ⟨x, at_i, by omega, described⟩

/-- They are set up like that. -/
theorem outputsFrom_of_describes {k : Nat} {outputs : List OutputConfig}
    (h : DescribesFrom k ds outputs) : outputsFrom k ds = .ok outputs := by
  induction ds generalizing k outputs with
  | nil =>
    obtain rfl : outputs = [] := List.length_eq_zero_iff.mp h.1
    rfl
  | cons o ds ih =>
    obtain ⟨length, each⟩ := h
    obtain ⟨x, first, index, described⟩ := each 0 o rfl
    cases outputs with
    | nil => cases first
    | cons y outputs =>
      obtain rfl := Option.some.inj first
      have rest : DescribesFrom (k + 1) ds outputs := by
        refine ⟨Nat.succ.inj length, fun i o' there => ?_⟩
        obtain ⟨x, at_i, index, described⟩ := each (i + 1) o' there
        exact ⟨x, at_i, by omega, described⟩
      have number : UInt8.ofNat k = y.index := by
        rw [show k = y.index.toNat from index.symm, UInt8.ofNat_toNat]
      rw [outputsFrom, setup_of_describes described, ih rest, number]
      rfl

/-- Outputs stand for one list of set-ups, as they are set up like that. -/
theorem DescribesFrom.unique {k : Nat} {outputs outputs' : List OutputConfig}
    (h : DescribesFrom k ds outputs) (h' : DescribesFrom k ds outputs') : outputs = outputs' :=
  Except.ok.inj ((outputsFrom_of_describes h).symm.trans (outputsFrom_of_describes h'))

/-- Where an output cannot be set up, there is a first one of which all before it can. -/
theorem exists_firstFault_mem (h : ¬ ∀ o ∈ ds, o.Valid) : ∃ i o e, ds[i]? = some o ∧
    (∀ o' ∈ ds.take i, o'.Valid) ∧ o.FirstFault e := by
  induction ds with
  | nil => exact absurd nofun h
  | cons o ds ih =>
    by_cases valid : o.Valid
    · obtain ⟨i, o', e, there, before, fault⟩ :=
        ih fun all => h (List.forall_mem_cons.mpr ⟨valid, all⟩)
      exact ⟨i + 1, o', e, there, List.forall_mem_cons.mpr ⟨valid, before⟩, fault⟩
    · obtain ⟨e, fault⟩ := exists_firstFault valid
      exact ⟨0, o, e, rfl, nofun, fault⟩

/-- The fault of that output is reported, with its number and its type. -/
theorem outputsFrom_of_firstFault {k i : Nat} {e : SetupError} (there : ds[i]? = some o)
    (before : ∀ o' ∈ ds.take i, o'.Valid) (kind : o.Kind t name) (fault : o.FirstFault e) :
    outputsFrom k ds = .error (.output (k + i) t e) := by
  induction ds generalizing k i with
  | nil => cases there
  | cons d ds ih =>
    cases i with
    | zero =>
      obtain rfl := Option.some.inj there
      rw [outputsFrom, setup_of_firstFault fault, ← kind.type_eq]
      rfl
    | succ i =>
      obtain ⟨valid, before⟩ := List.forall_mem_cons.mp before
      obtain ⟨s, described⟩ := valid.exists_describes
      rw [outputsFrom, setup_of_describes described, ih (k := k + 1) there before,
        Nat.add_assoc, Nat.add_comm 1 i]
      rfl

end OutputDescription

/-! ## Whole descriptions -/

/-- Baud rates that can be kept in a byte. -/
def ValidBaud (bps : UInt32) : Prop := bps ≠ 0 ∧ 1200 ∣ bps.toNat ∧ bps.toNat ≤ 306000

theorem ofBps_of_valid {bps : UInt32} (h : ValidBaud bps) :
    ∃ b, Baud.ofBps bps = .ok b ∧ b.bps = bps.toNat := by
  obtain ⟨some_rate, ⟨n, units⟩, small⟩ := h
  have positive : bps.toNat ≠ 0 := fun zero => some_rate (UInt32.toNat_inj.mp zero)
  have quotient : bps.toNat / Baud.unit = n := by
    rw [units]
    exact Nat.mul_div_cancel_left n (by decide)
  have fits : bps.toNat ≠ 0 ∧ bps.toNat % Baud.unit = 0 ∧ bps.toNat / Baud.unit < 256 :=
    ⟨positive, by rw [units]; exact Nat.mul_mod_right _ _, by omega⟩
  refine ⟨⟨UInt8.ofNat (bps.toNat / Baud.unit)⟩, ?_, ?_⟩
  · rw [Baud.ofBps, Baud.ofBps?, if_pos fits]
  · have n_lt : n < 256 := by omega
    have raw : (UInt8.ofNat n).toNat = n := UInt8.toNat_ofNat_of_lt' n_lt
    rw [Baud.bps, quotient, raw, units]
    exact Nat.mul_comm ..

theorem ofBps_of_not_valid {bps : UInt32} (h : ¬ ValidBaud bps) :
    Baud.ofBps bps = .error (.invalidBaud bps) := by
  have unfit :
      ¬ (bps.toNat ≠ 0 ∧ bps.toNat % Baud.unit = 0 ∧ bps.toNat / Baud.unit < 256) := by
    rintro ⟨positive, divides, fits⟩
    have units : bps.toNat % 1200 = 0 := divides
    change bps.toNat / 1200 < 256 at fits
    refine h ⟨fun zero => positive (by rw [zero]; rfl), Nat.dvd_of_mod_eq_zero units, by omega⟩
  rw [Baud.ofBps, Baud.ofBps?, if_neg unfit]

/-- A rate is determined by its bits per second. -/
theorem Baud.bps_injective {b b' : Baud} (h : b.bps = b'.bps) : b = b' := by
  cases b
  cases b'
  exact congrArg Baud.mk (UInt8.toNat_inj.mp (Nat.eq_of_mul_eq_mul_right (by decide) h))

namespace ModuleDescription

variable (d : ModuleDescription)

/-- Nothing is wrong with a description. -/
structure Valid : Prop where
  baud : ValidBaud d.header.baud
  count : d.outputs.length ≤ 255
  outputs : ∀ o ∈ d.outputs, o.Valid

/-- The configuration that a description stands for. -/
structure Describes (c : ModuleConfig) : Prop where
  magic : c.header.magic = 0x5C
  protocolVersion : c.header.protocolVersion = d.header.protocolVersion
  hardwareVersion : c.header.hardwareVersion = d.header.hardwareVersion
  baud : c.header.baud.bps = d.header.baud.toNat
  numOutputs : c.header.numOutputs.toNat = d.outputs.length
  flags : c.header.flags = d.header.flags
  deviceId : c.header.deviceId = d.header.deviceId
  address : c.header.address = d.header.address
  length : c.outputs.length = d.outputs.length
  outputs : ∀ i (o : OutputDescription), d.outputs[i]? = some o →
    ∃ x : OutputConfig, c.outputs[i]? = some x ∧ x.index.toNat = i ∧ o.Describes x.setup

/-- The fault that comes first in a description. -/
inductive FirstFault : DescriptionError → Prop where
  | baud (wrong : ¬ ValidBaud d.header.baud) : FirstFault (.invalidBaud d.header.baud)
  | count (baud : ValidBaud d.header.baud) (wrong : 255 < d.outputs.length) :
    FirstFault (.tooManyOutputs d.outputs.length)
  /-- The fault in an output, with the number and the type of that output. -/
  | output {i : Nat} {o : OutputDescription} {t : OutputType} {name : String} {cause : SetupError}
    (baud : ValidBaud d.header.baud) (count : d.outputs.length ≤ 255)
    (there : d.outputs[i]? = some o) (before : ∀ o' ∈ d.outputs.take i, o'.Valid)
    (kind : o.Kind t name) (wrong : o.FirstFault cause) : FirstFault (.output i t cause)

variable {d}

/-- With a baud rate that can be kept and outputs that can be counted, the outputs are set up. -/
theorem validate_of_countable {b : Baud} (rate : Baud.ofBps d.header.baud = .ok b)
    (count : d.outputs.length ≤ 255) : d.validate = OutputDescription.outputsFrom 0 d.outputs >>=
      ModuleConfig.ofOutputs (configHeader d.header b) := by
  have few : ¬ d.outputs.length > ModuleConfig.maxOutputs := Nat.not_lt_of_le count
  unfold ModuleDescription.validate
  rw [rate]
  exact if_neg few

/-- What is valid is turned into a configuration that it stands for. -/
theorem Valid.validate (h : d.Valid) : ∃ c, d.validate = .ok c ∧ d.Describes c := by
  obtain ⟨b, rate, bps⟩ := ofBps_of_valid h.baud
  have room : 0 + d.outputs.length ≤ 256 := by
    have := h.count
    omega
  obtain ⟨outputs, described⟩ := OutputDescription.exists_describesFrom room h.outputs
  have set_up := OutputDescription.outputsFrom_of_describes described
  obtain ⟨length, each⟩ := described
  have count : outputs.length ≤ ModuleConfig.maxOutputs := length ▸ h.count
  have counted : (UInt8.ofNat outputs.length).toNat = outputs.length :=
    UInt8.toNat_ofNat_of_lt' (Nat.lt_succ_of_le count)
  let header := { configHeader d.header b with numOutputs := UInt8.ofNat outputs.length }
  have built : ModuleConfig.ofOutputs (configHeader d.header b) outputs =
      .ok ⟨header, outputs, counted⟩ := by
    rw [ModuleConfig.ofOutputs, ModuleConfig.ofOutputs?, dif_pos count]
  refine ⟨⟨header, outputs, counted⟩, ?_, rfl, rfl, rfl, bps, counted.trans length, rfl, rfl, rfl,
    length, fun i o there => ?_⟩
  · rw [validate_of_countable rate h.count, set_up]
    exact built
  · obtain ⟨x, at_i, index, described⟩ := each i o there
    exact ⟨x, at_i, index.trans (Nat.zero_add i), described⟩

/-- The first fault of a description is the one that is reported. -/
theorem validate_of_firstFault {e : DescriptionError} (h : d.FirstFault e) :
    d.validate = .error e := by
  cases h with
  | baud wrong =>
    unfold ModuleDescription.validate
    rw [ofBps_of_not_valid wrong]
    rfl
  | count baud wrong =>
    obtain ⟨b, rate, -⟩ := ofBps_of_valid baud
    unfold ModuleDescription.validate
    rw [rate]
    exact if_pos wrong
  | output baud count there before kind wrong =>
    obtain ⟨b, rate, -⟩ := ofBps_of_valid baud
    rw [validate_of_countable rate count,
      OutputDescription.outputsFrom_of_firstFault there before kind wrong, Nat.zero_add]
    rfl

/-- What is not valid has a first fault. -/
theorem exists_firstFault (h : ¬ d.Valid) : ∃ e, d.FirstFault e := by
  by_cases baud : ValidBaud d.header.baud
  · by_cases count : d.outputs.length ≤ 255
    · obtain ⟨i, o, e, there, before, wrong⟩ :=
        OutputDescription.exists_firstFault_mem fun outputs => h ⟨baud, count, outputs⟩
      obtain ⟨t, name, kind⟩ := o.exists_kind
      exact ⟨_, .output baud count there before kind wrong⟩
    · exact ⟨_, .count baud (Nat.lt_of_not_le count)⟩
  · exact ⟨_, .baud baud⟩

/-- The outputs of a configuration are the ones described, numbered from zero on. -/
theorem Describes.describesFrom {c : ModuleConfig} (h : d.Describes c) :
    OutputDescription.DescribesFrom 0 d.outputs c.outputs := by
  refine ⟨h.length, fun i o there => ?_⟩
  obtain ⟨x, at_i, index, described⟩ := h.outputs i o there
  exact ⟨x, at_i, index.trans (Nat.zero_add i).symm, described⟩

/-- A description stands for one configuration. -/
theorem Describes.unique {c c' : ModuleConfig} (h : d.Describes c) (h' : d.Describes c') :
    c = c' := by
  have baud : c.header.baud = c'.header.baud := Baud.bps_injective (h.baud.trans h'.baud.symm)
  have numOutputs : c.header.numOutputs = c'.header.numOutputs :=
    UInt8.toNat_inj.mp (h.numOutputs.trans h'.numOutputs.symm)
  have header : c.header = c'.header := by
    show ConfigHeader.mk c.header.magic _ _ c.header.baud c.header.numOutputs _ _ _ = _
    rw [h.magic, h.protocolVersion, h.hardwareVersion, baud, numOutputs, h.flags, h.deviceId,
      h.address, ← h'.magic, ← h'.protocolVersion, ← h'.hardwareVersion, ← h'.flags,
      ← h'.deviceId, ← h'.address]
  have outputs : c.outputs = c'.outputs := h.describesFrom.unique h'.describesFrom
  cases c
  cases c'
  cases header
  cases outputs
  rfl

/-- A description is turned into a configuration exactly if its baud rate can be kept, its outputs
can be counted and each of them can be set up. The configuration is the one that the description
stands for, and otherwise the fault that comes first in it is reported. A fault in an output calls
the output by the name of its kind. -/
theorem validate_exact (d : ModuleDescription) :
    ((∃ c, d.validate = .ok c) ↔ d.Valid) ∧
      (∀ c, d.validate = .ok c ↔ d.Valid ∧ d.Describes c) ∧
      (∀ e, d.validate = .error e ↔ d.FirstFault e) ∧
      ∀ i t cause, d.validate = .error (.output i t cause) →
        ∃ o, d.outputs[i]? = some o ∧ o.Kind t t.kindName := by
  have valid : ∀ c, d.validate = .ok c → d.Valid := by
    refine fun c accepted => Classical.byContradiction fun invalid => ?_
    obtain ⟨e, fault⟩ := exists_firstFault invalid
    cases accepted.symm.trans (validate_of_firstFault fault)
  have first : ∀ e, d.validate = .error e → d.FirstFault e := by
    intro e refused
    have invalid : ¬ d.Valid := fun h => by
      obtain ⟨c, accepted, -⟩ := h.validate
      cases accepted.symm.trans refused
    obtain ⟨e', fault⟩ := exists_firstFault invalid
    obtain rfl := Except.error.inj ((validate_of_firstFault fault).symm.trans refused)
    exact fault
  refine ⟨⟨fun ⟨c, accepted⟩ => valid c accepted, fun h => ?_⟩, fun c => ⟨fun accepted => ?_, ?_⟩,
    fun e => ⟨first e, validate_of_firstFault⟩, fun i t cause refused => ?_⟩
  · obtain ⟨c, accepted, -⟩ := h.validate
    exact ⟨c, accepted⟩
  · obtain ⟨c', accepted', described⟩ := (valid c accepted).validate
    obtain rfl := Except.ok.inj (accepted'.symm.trans accepted)
    exact ⟨valid c' accepted, described⟩
  · rintro ⟨h, described⟩
    obtain ⟨c', accepted, described'⟩ := h.validate
    rw [accepted, described.unique described']
  · cases first _ refused with
    | output baud count there before kind wrong =>
      exact ⟨_, there, kind.kindName_eq.symm ▸ kind⟩

end ModuleDescription

end LightLink
