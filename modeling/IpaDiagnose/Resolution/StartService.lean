import IpaDiagnose.Resolution.Gates

/-!
# The procedure for a stopped service

The entry of the shipped catalogue that starts one stopped service, and
the checks it makes. It takes the service from the diagnosis and asks
systemd for its unit; the unit is all its commands name.
-/

namespace IpaDiagnose.Resolver.StartService

open Py (Value Dict)
open Result

/-! ## The procedure -/

def strs (ss : List String) : Value := .list (ss.map Value.str)

/-- A field of a check's result. -/
def ref (id name : String) : Value := .dict [("field", .str name), ("ref", .str id)]

def compareWith (left : Value) (op : String) (right : Value) : Value :=
  .dict [("left", left), ("op", .str op), ("right", right)]

/-- The unit that the check found. -/
def unitRef : Dict := [("field", .str "unit"), ("ref", .str "unit"), ("type", .str "systemd_unit")]

/-- `systemctl` with that unit. -/
def systemctl (verb : String) : List Arg :=
  [.lit "systemctl", .lit verb, .hole unitRef "systemd_unit"]

/-- The value bound to the service. -/
def boundService : Dict := [("service", .dict [("bind", .str "service")])]

def investigate : List Inv :=
  [{ id := .str "root", check := "host.privilege", params := [], label := .str "Privileges"
     forEach := .null },
    { id := .str "unit", check := "systemd.unit", params := boundService
      label := .str "State of \x7bbind.service\x7d", forEach := .null },
    { id := .str "journal", check := "systemd.journal_tail", params := [("unit", ref "unit" "unit")]
      label := .str "Recent log of \x7bref.unit.unit\x7d", forEach := .null }]

/-- When the fix is withheld, and the reason that is given. -/
def reasons : List (Value × String) :=
  [(compareWith (ref "unit" "load_state") "eq" (.str "masked"),
      "\x7bref.unit.unit\x7d is masked: someone disabled it on purpose. ipa-diagnose will not "
        ++ "suggest unmasking it; find out why it was masked first."),
    (compareWith (ref "unit" "load_state") "ne" (.str "loaded"),
      "\x7bref.unit.unit\x7d is not a loaded unit on this host (load state "
        ++ "\x7bref.unit.load_state\x7d), so it cannot simply be started."),
    (compareWith (ref "unit" "active_state") "eq" (.str "active"),
      "\x7bref.unit.unit\x7d is running now (checked just now), so there is nothing to start. "
        ++ "Run ipa-diagnose again to refresh the findings."),
    (compareWith (ref "unit" "active_state") "in" (strs ["activating", "deactivating", "reloading"]),
      "\x7bref.unit.unit\x7d is currently \x7bref.unit.active_state\x7d. Wait for it to settle, "
        ++ "then run ipa-diagnose again."),
    (.dict [("all", .list [compareWith (ref "unit" "start_method") "eq" (.str "systemctl"),
        compareWith (ref "unit" "unit_file_state") "eq" (.str "disabled")])],
      "\x7bref.unit.unit\x7d is disabled in systemd, which may be intentional. ipa-diagnose will "
        ++ "not start a disabled service; check why it was disabled first.")]

def isRoot : Value := .dict [("left", ref "root" "is_root"), ("op", .str "is_true")]

def startUnit : StepSpec :=
  { id := .str "start-unit"
    text := "Start only \x7bref.unit.unit\x7d; no other service is started or stopped"
    runOn := "local"
    command := systemctl "start"
    risk := "MEDIUM"
    changes := ["service-start"]
    expected := "the command returns without an error and \x7bref.unit.unit\x7d is active. If it "
      ++ "fails, it stays stopped and systemctl status shows why"
    forEach := .null
    onlyIf := none }

def stopAgain : EntrySpec :=
  { text := "Stop it again (back to the state it was in)"
    command := some (systemctl "stop"), forEach := .null, onlyIf := none }

def isActive : VerifySpec :=
  { text := "\x7bref.unit.unit\x7d is active", check := "systemd.unit", params := boundService
    when := readPred (compareWith (ref "this" "active_state") "eq" (.str "active"))
    forEach := .null }

/-- The entry as it is read from the catalogue, whose text is `raw`. -/
def procedure (raw : Value) : Procedure :=
  { id := "proc.service.start-stopped-service"
    diagnosis := .str "healthcheck.service-not-running"
    variant := .null
    minConfidence := "HIGH"
    bindings := [("service", { type := "ipa_service", item := .null, fields := [] })]
    freeipaMin := some "4.9"
    freeipaBelow := some "5.0"
    clientRole := false
    investigate := investigate
    withholdIf := reasons.map fun r => { when := readPred r.1, reason := r.2, forEach := .null }
    prerequisites :=
      [{ text := "ipa-diagnose is running as root (starting a system service needs root)"
         when := some (readPred isRoot) }]
    confirmFirst := []
    steps := [startUnit]
    whatChanges :=
      [{ text := "\x7bref.unit.unit\x7d goes from \x7bref.unit.active_state\x7d to running. No "
            ++ "configuration, data or other service is changed."
         command := none, forEach := .null, onlyIf := none }]
    rollback := [stopAgain]
    verify := [isActive]
    raw := raw }

def KEY : String := "healthcheck.service-not-running"

/-- A catalogue of this entry alone. -/
def catalogue : List Entry := [.procedure (procedure .null)]

theorem selected_catalogue : selected catalogue KEY none = some (.procedure (procedure .null)) := by
  have hpick : ([Entry.procedure (procedure .null)].mergeSort fun a b => PyStr.le a.id b.id).head?
      = some (.procedure (procedure .null)) := by
    rw [List.mergeSort_singleton]
    rfl
  exact hpick

/-- The service is typed as one of FreeIPA. -/
theorem types_service (raw : Value) :
    ∃ spec, ("service", spec) ∈ (procedure raw).bindings ∧ spec.type = "ipa_service" :=
  ⟨_, List.mem_singleton.mpr rfl, rfl⟩

end IpaDiagnose.Resolver.StartService
