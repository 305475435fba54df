import HealthWatch.Proofs.Collector.Jobs
import HealthWatch.Proofs.Settings.Check

/-! # Settings — what accepted settings promise to the storage interface

    The interface refuses reports without a name or a server.  Settings are checked for
    both before they are accepted: a blank name of a check is refused, and a blank name
    of the server is replaced.  What the checks promise carries over to the collector
    that is made of them (`Collector.named_of_settings`). -/

namespace HealthWatch

open Json Text

namespace Settings

/-- Nothing in settings that a report needs is blank. -/
structure Named (s : Settings) : Prop where
  server : isBlankText s.serverName = false
  checks : ∀ c ∈ s.checks, isBlankText c.name = false

/-- A blank name of the server gives way to that of the host, or to a fixed one. -/
theorem serverName_withServerName {host : Option String}
    (hhost : ∀ name, host = some name → isBlankText name = false) (s : Settings) :
    isBlankText (s.withServerName host).serverName = false := by
  rw [withServerName]
  split
  · cases host with
    | none => exact (by decide +kernel : isBlankText "localhost" = false)
    | some name => exact hhost name rfl
  · next hblank => exact Bool.eq_false_iff.2 hblank

/-- The names in accepted settings, on a host whose name is not blank. -/
theorem named_of_fromJson {host : Option String}
    (hhost : ∀ name, host = some name → isBlankText name = false) {text : String} {s : Settings}
    (h : fromJson host text = .ok s) : s.Named := by
  obtain ⟨read, -, h⟩ := bind_eq_ok h
  obtain ⟨hvalid, rfl⟩ := finish_eq_ok_iff.1 h
  refine ⟨serverName_withServerName hhost read, fun c hc => ?_⟩
  rw [withServerName_eq] at hc
  exact Bool.eq_false_iff.2 (isBlankText_ne_true_iff.2 (hvalid.names c hc))

end Settings

namespace Collector

variable {α : Type}

/-- Nothing in a collector that a report needs is blank, and the store is left to give
    its definitions their identifiers. -/
structure Named (c : Collector α) : Prop where
  server : isBlankText c.serverName = false
  jobs : ∀ job ∈ c.jobs, isBlankText job.definition.name = false ∧ job.definition.id = .nil

/-- The collector of accepted settings. -/
theorem named_of_settings {registry : Registry α} {s : Settings} (hs : s.Named)
    {c : Collector α} (h : ofSettings registry s = .ok c) : c.Named := by
  obtain ⟨-, hserver, -, hserve⟩ := ofSettings_eq_ok_iff.1 h
  refine ⟨hserver ▸ hs.server, fun job hjob => ?_⟩
  obtain ⟨check, hcheck, hjob⟩ := exists_mem_of_forall₂ hserve.flip hjob
  rw [hjob.definition]
  exact ⟨hs.checks check hcheck, rfl⟩

end Collector

end HealthWatch
