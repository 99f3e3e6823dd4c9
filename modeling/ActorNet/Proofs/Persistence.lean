import ActorNet.Config.File
import ActorNet.Proofs.Legibility

set_option autoImplicit false

/-!
# Saved configurations

A file of JSON text keeps the heartbeat in whole milliseconds and everything else as it is. A configuration that is
loaded from it and saved again does not change any more. It is as valid as the one that was saved, unless that one had a
heartbeat of less than a millisecond: such a heartbeat is valid, and the file keeps nothing of it.
-/
namespace ActorNet.Config

open Json

/-- A configuration as a file keeps it. -/
def inMillis (config : Config) : Config := { config with heartbeat := .ofMillis config.heartbeat.millis }

def saved (config : Config) : FileContent := .bytes config.toJson.render.toUTF8

section Millis

variable (d : Duration)

theorem millis_le : d.millis ≤ wordMax := Nat.min_le_right _ _

theorem ofMillis_millis_nanos : (Duration.ofMillis d.millis).nanos =
    min (d.nanos - d.nanos % Duration.nanosPerMilli) (wordMax * Duration.nanosPerMilli) := by
  rw [← Nat.div_mul_self_eq_mod_sub_self, Nat.mul_min_mul_right]
  rfl

theorem ofMillis_millis_pos : 0 < (Duration.ofMillis d.millis).nanos ↔ Duration.nanosPerMilli ≤ d.nanos := by
  have hmillis : 0 < d.millis ↔ Duration.nanosPerMilli ≤ d.nanos := by
    unfold Duration.millis
    rw [lt_min_iff, Nat.div_pos_iff, and_iff_left (show 0 < wordMax by decide),
      and_iff_right (show 0 < Duration.nanosPerMilli by decide)]
  rw [← hmillis]
  exact Nat.mul_pos_iff_of_pos_right (by decide)

theorem millis_ofMillis {ms : Nat} (h : ms ≤ wordMax) : (Duration.ofMillis ms).millis = ms := by
  unfold Duration.millis Duration.ofMillis
  rw [Nat.mul_div_cancel _ (by decide), Nat.min_eq_left h]

end Millis

theorem inMillis_inMillis (config : Config) : config.inMillis.inMillis = config.inMillis := by
  unfold inMillis
  rw [millis_ofMillis (millis_le _)]

theorem validate_eq_ok_iff (config : Config) :
    config.validate = .ok () ↔ 0 < config.heartbeat.nanos ∧ 0 < config.maxCyclesPerTurn := by
  unfold validate fault? Duration.isZero
  split_ifs
  all_goals
    simp_all
    try omega

section Saved

variable {config : Config} (bounded : config.maxCyclesPerTurn ≤ wordMax)

include bounded

theorem read?_toJson : Reader.read? config.toJson.render = some (.object [
    (some "heartbeat_ms", .int config.heartbeat.millis),
    (some "restrict_to_triggered", .bool config.restrictToTriggered),
    (some "trace_triggers", .bool config.traceTriggers),
    (some "max_cycles_per_turn", .int config.maxCyclesPerTurn)]) := by
  refine read?_render ?_ (List.cons_ne_nil _ _)
  exact .cons ⟨rfl, legible_nat (millis_le _)⟩ (.cons ⟨rfl, legible_bool _⟩
    (.cons ⟨rfl, legible_bool _⟩ (.cons ⟨rfl, legible_nat bounded⟩ .nil)))

theorem ofJson?_toJson : ofJson? config.toJson.render = some config.inMillis := by
  have hword {n : Nat} (h : n ≤ wordMax) : word? n = some n := by simp [word?, h]
  simp [ofJson?, read?_toJson bounded, ofSource?, Source.named, Source.field?, guard, ofParts?, orDefault, natOfSource?,
    boolOfSource?, hword bounded, hword (millis_le _), inMillis]

theorem load_saved {path : String} (json : extension? path = some "json".toList) :
    load path config.saved = .ok config.inMillis := by
  have htext : config.saved.text = .ok config.toJson.render := by
    simp only [saved, FileContent.text, String.fromUTF8?, String.toUTF8_eq_toByteArray,
      dif_pos config.toJson.render.isValidUTF8]
    rfl
  unfold load
  simp only [htext, if_pos json, Except.mapError, bind, Except.bind, ofJson?_toJson bounded]
  rfl

end Saved

/-- A valid configuration that is saved can be loaded: its heartbeat is rounded down and capped, nothing else changes,
and saving it again changes nothing. It is valid again exactly if its heartbeat is a millisecond or more. -/
theorem saved_reloads {path : String} (json : extension? path = some "json".toList) {config : Config}
    (bounded : config.maxCyclesPerTurn ≤ wordMax) (valid : config.validate = .ok ()) :
    ∃ loaded, load path config.saved = .ok loaded ∧
      loaded.restrictToTriggered = config.restrictToTriggered ∧ loaded.traceTriggers = config.traceTriggers ∧
      loaded.maxCyclesPerTurn = config.maxCyclesPerTurn ∧
      loaded.heartbeat.nanos = min (config.heartbeat.nanos - config.heartbeat.nanos % Duration.nanosPerMilli)
        (wordMax * Duration.nanosPerMilli) ∧
      load path loaded.saved = .ok loaded ∧
      (loaded.validate = .ok () ↔ Duration.nanosPerMilli ≤ config.heartbeat.nanos) := by
  have hbounded : config.inMillis.maxCyclesPerTurn ≤ wordMax := bounded
  refine ⟨config.inMillis, load_saved bounded json, rfl, rfl, rfl, ofMillis_millis_nanos _, ?_, ?_⟩
  · rw [load_saved hbounded json, inMillis_inMillis]
  · rw [validate_eq_ok_iff] at valid
    rw [validate_eq_ok_iff, and_iff_left (show 0 < config.inMillis.maxCyclesPerTurn from valid.2)]
    exact ofMillis_millis_pos _

def brisk : Config := { heartbeat := ⟨500000⟩ }

theorem saved_reloads_brisk :
    brisk.validate = .ok () ∧ ∃ loaded, load "scheduler.json" brisk.saved = .ok loaded ∧ loaded.heartbeat = .zero := by
  have hjson : extension? "scheduler.json" = some "json".toList := by decide
  have hbounded : brisk.maxCyclesPerTurn ≤ wordMax := by decide
  refine ⟨rfl, ?_⟩
  obtain ⟨loaded, hload, -, -, -, hheartbeat, -⟩ := saved_reloads hjson hbounded rfl
  exact ⟨loaded, hload, congrArg Duration.mk hheartbeat⟩

/-- It is valid, and it is not when it was saved and loaded. -/
theorem brisk_spoiled : brisk.validate = .ok () ∧ ∃ loaded, load "scheduler.json" brisk.saved = .ok loaded ∧
    loaded.validate = .error (.invalidConfig "heartbeat_ms must be greater than 0") :=
  ⟨rfl, brisk.inMillis, load_saved (by decide) (by decide), rfl⟩

end ActorNet.Config
