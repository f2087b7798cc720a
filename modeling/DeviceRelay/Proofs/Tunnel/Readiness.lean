import DeviceRelay.Tunnel.Worker
import Mathlib.Data.List.TakeWhile

/-!
# Readiness and dialing

A configuration is ready if its base and its device id are not blank, and it has a URL if something
is left of them without the blanks around them and the slashes at the end of the base. So a base of
slashes alone is ready and has no URL.

* `TunnelConfig.isReady_iff`, `TunnelConfig.isDialable_iff`: the two checks in terms of the texts.
* `TunnelConfig.NamesSlashes`: the configurations on which they differ.
* `TunnelConfig.ready_iff_dialable_iff`: where ready means dialable, and what the worker asks for.
-/

namespace DeviceRelay

namespace TunnelConfig

/-- There is a URL to dial. -/
def IsDialable (c : TunnelConfig) : Prop := ∃ url, dialUrl c = .ok url

/-- A device is named, and a base that has slashes and nothing else between the blanks around it. -/
structure NamesSlashes (c : TunnelConfig) : Prop where
  deviceId : Text.trim c.deviceId ≠ ""
  baseUrl : Text.trim c.baseUrl ≠ ""
  slashes : ∀ d ∈ (Text.trim c.baseUrl).toList, d = '/'

/-! ## The two checks -/

theorem isReady_iff {c : TunnelConfig} :
    c.isReady = true ↔ Text.trim c.baseUrl ≠ "" ∧ Text.trim c.deviceId ≠ "" := by
  simp [isReady]

theorem trimBase_isEmpty_iff {base : String} :
    (trimBase base).isEmpty = true ↔ ∀ d ∈ (Text.trim base).toList, d = '/' := by
  rw [trimBase, List.isEmpty_iff, List.reverse_eq_nil_iff, List.dropWhile_eq_nil_iff]
  simp

/-- The base is looked at before the device id. -/
theorem dialUrl_eq_missingBaseUrl_iff {c : TunnelConfig} :
    dialUrl c = .error .missingBaseUrl ↔ ∀ d ∈ (Text.trim c.baseUrl).toList, d = '/' := by
  rw [← trimBase_isEmpty_iff]
  unfold dialUrl
  dsimp only
  split
  · rename_i hbase
    exact iff_of_true rfl hbase
  · rename_i hbase
    refine iff_of_false (fun h => ?_) hbase
    split at h <;> cases h

theorem isDialable_iff {c : TunnelConfig} :
    c.IsDialable ↔
      (∃ d ∈ (Text.trim c.baseUrl).toList, d ≠ '/') ∧ Text.trim c.deviceId ≠ "" := by
  have hbase : (∃ d ∈ (Text.trim c.baseUrl).toList, d ≠ '/') ↔
      ¬(trimBase c.baseUrl).isEmpty = true := by
    rw [trimBase_isEmpty_iff]
    simp
  rw [hbase, Ne, ← String.isEmpty_iff]
  unfold IsDialable dialUrl
  dsimp only
  split
  · rename_i hempty
    exact iff_of_false (fun ⟨_, h⟩ => by cases h) fun h => h.1 hempty
  · split
    · rename_i hempty
      exact iff_of_false (fun ⟨_, h⟩ => by cases h) fun h => h.2 hempty
    · rename_i hleft hdevice
      exact iff_of_true ⟨_, rfl⟩ ⟨hleft, hdevice⟩

/-- A base with anything but slashes in it is not blank. -/
theorem isReady_of_isDialable {c : TunnelConfig} (h : c.IsDialable) : c.isReady = true := by
  obtain ⟨⟨d, hd, -⟩, hdevice⟩ := isDialable_iff.mp h
  refine isReady_iff.mpr ⟨fun hblank => ?_, hdevice⟩
  rw [hblank] at hd
  cases hd

/-- A configuration that is ready has a URL, or a base of slashes. -/
theorem namesSlashes_iff {c : TunnelConfig} :
    c.NamesSlashes ↔ c.isReady = true ∧ dialUrl c = .error .missingBaseUrl := by
  rw [isReady_iff, dialUrl_eq_missingBaseUrl_iff]
  constructor
  · rintro ⟨hdevice, hbase, hslashes⟩
    exact ⟨⟨hbase, hdevice⟩, hslashes⟩
  · rintro ⟨⟨hbase, hdevice⟩, hslashes⟩
    exact ⟨hdevice, hbase, hslashes⟩

theorem isDialable_of_isReady {c : TunnelConfig} (h : c.isReady = true) (hbase : ¬c.NamesSlashes) :
    c.IsDialable := by
  have hother : ¬∀ d ∈ (Text.trim c.baseUrl).toList, d = '/' := fun hall =>
    hbase (namesSlashes_iff.mpr ⟨h, dialUrl_eq_missingBaseUrl_iff.mpr hall⟩)
  exact isDialable_iff.mpr ⟨by simpa using hother, (isReady_iff.mp h).2⟩

end TunnelConfig

/-! ## The worker -/

/-- A worker goes to the gate with a URL: being ready is not enough. -/
theorem Tunnel.look_queueing_iff (t : Tunnel) (w : Worker) (now : Duration) :
    (∃ a, (t.look w now).phase = .queueing a) ↔
      w.stopRequested = false ∧ t.enabled = true ∧ t.config.IsDialable := by
  unfold look
  split
  · rename_i hends
    refine iff_of_false (fun ⟨_, h⟩ => by cases h) fun ⟨hstop, henabled, _⟩ => ?_
    simp [hstop, henabled] at hends
  · rename_i hgoes
    have hgoes : w.stopRequested = false ∧ t.enabled = true := by simpa using hgoes
    dsimp only
    split
    · rename_i hready
      refine iff_of_false (fun ⟨_, h⟩ => by cases h) fun ⟨_, _, hdial⟩ => ?_
      rw [TunnelConfig.isReady_of_isDialable hdial] at hready
      cases hready
    · cases hurl : dialUrl t.config with
      | ok url => exact iff_of_true ⟨⟨t.config, url⟩, rfl⟩ ⟨hgoes.1, hgoes.2, url, hurl⟩
      | error e =>
        refine iff_of_false (fun ⟨_, h⟩ => by cases h) fun ⟨_, _, url, hok⟩ => ?_
        rw [hurl] at hok
        cases hok

namespace TunnelConfig

/-- **Ready means dialable** exactly where the base is not one of slashes alone. Such a base is
ready and has no URL, so that its worker looks again and again and never goes to the gate: what the
worker asks for is the URL. -/
theorem ready_iff_dialable_iff (c : TunnelConfig) :
    ((c.isReady = true ↔ ∃ url, dialUrl c = .ok url) ↔ ¬c.NamesSlashes) ∧
    (c.NamesSlashes ↔ c.isReady = true ∧ dialUrl c = .error .missingBaseUrl) ∧
    ∀ (t : Tunnel) (w : Worker) (now : Duration),
      (∃ a, (Tunnel.look { t with config := c } w now).phase = .queueing a) ↔
        w.stopRequested = false ∧ t.enabled = true ∧ ∃ url, dialUrl c = .ok url := by
  refine ⟨⟨fun h hslashes => ?_, fun hbase => ?_⟩, namesSlashes_iff, fun t w now => ?_⟩
  · obtain ⟨hready, herror⟩ := namesSlashes_iff.mp hslashes
    obtain ⟨url, hurl⟩ := h.mp hready
    rw [herror] at hurl
    cases hurl
  · exact ⟨fun hready => isDialable_of_isReady hready hbase, isReady_of_isDialable⟩
  · exact Tunnel.look_queueing_iff { t with config := c } w now

/-- A slash is a base that is ready and has no URL. -/
theorem ready_without_url :
    let c : TunnelConfig := ⟨"/", "pier-7", "", "", true, .ofSeconds 1, .ofSeconds 10⟩
    c.isReady = true ∧ ¬∃ url, dialUrl c = .ok url := by
  refine ⟨by decide, fun ⟨url, h⟩ => ?_⟩
  have hnone : (dialUrl ⟨"/", "pier-7", "", "", true, .ofSeconds 1, .ofSeconds 10⟩).toOption =
      none := by decide
  rw [h] at hnone
  cases hnone

end TunnelConfig

end DeviceRelay
