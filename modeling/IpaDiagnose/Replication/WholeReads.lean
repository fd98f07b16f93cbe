import IpaDiagnose.Planner.Visits
import IpaDiagnose.Replication.Articulation
import IpaDiagnose.Replication.Collected
import IpaDiagnose.Replication.Consistency
import IpaDiagnose.Replication.LdifWhole
import IpaDiagnose.Replication.Reads

/-!
# Reads that are called complete

A read that was cut by the bound on a program's output, or by the bound
on entries, is marked; one that was cut by the bounds on an attribute's
values is not. So a read that is called complete is whole exactly if
every entry the server returned fits the reader.
-/

namespace IpaDiagnose.Replication

open Result
open Py (Value Dict Exc)
open Planner (Outcome Record Trace)
open IpaDiagnose.Topology (sortedSet)

/-! ## One read -/

/-- Everything the server returned to a search, less the secrets. -/
def returned (ds : LocalDs) (q : Query) : List Ldif.Entry :=
  (Ldif.parseWhole (ds.search q).out).map dropSecrets

/-- No line of what a search printed was cut, no entry and no value. -/
structure Whole (redact : String → String) (ds : LocalDs) (q : Query) : Prop where
  lines : (ds.search q).exec.out = (ds.search q).out
  entries : (ldapi_search redact ds q).entries = returned ds q

/-- A search with an output and as many entries as are read. -/
structure Bounded (ds : LocalDs) (q : Query) : Prop where
  output : PyStr.len (ds.search q).out ≤ EXEC_MAX
  entries : (returned ds q).length ≤ Ldif.MAX_ENTRIES

variable {redact : String → String} {ds : LocalDs} {q : Query}

theorem dropSecrets_cut (e : Ldif.Entry) : dropSecrets e.cut = (dropSecrets e).cut := by
  unfold dropSecrets Ldif.Entry.cut
  dsimp only
  rw [List.filter_map]
  rfl

theorem entries_eq (hrc : (ds.search q).rc = some 0) :
    (ldapi_search redact ds q).entries
      = (((Ldif.parseWhole (ds.search q).exec.out).map dropSecrets).map Ldif.Entry.cut).take
          Ldif.MAX_ENTRIES := by
  have hparse : (ldapi_search redact ds q).entries
      = (Ldif.parse (ds.search q).exec.out).map dropSecrets := by
    simp [ldapi_search, Printed.exec, hrc]
  rw [hparse, Ldif.parse_eq, List.map_take, List.map_map, List.map_map]
  congr 2
  funext e
  exact dropSecrets_cut e

theorem exec_out_iff : (ds.search q).exec.out = (ds.search q).out
    ↔ PyStr.len (ds.search q).out ≤ EXEC_MAX := by
  unfold Printed.exec PyStr.take PyStr.len
  dsimp only
  rw [← String.toList_inj, String.toList_ofList, List.take_eq_self_iff]

/-- A search that succeeded is read whole exactly if it is in bounds and
every entry fits. -/
theorem whole_iff (hrc : (ds.search q).rc = some 0) :
    Whole redact ds q ↔ Bounded ds q ∧ ∀ e ∈ returned ds q, e.Fits := by
  have hentries : (ds.search q).exec.out = (ds.search q).out →
      ((ldapi_search redact ds q).entries = returned ds q ↔
        (returned ds q).length ≤ Ldif.MAX_ENTRIES ∧ ∀ e ∈ returned ds q, e.Fits) := by
    intro hout
    rw [entries_eq hrc, hout]
    exact Ldif.cut_all_eq_iff _
  constructor
  · rintro ⟨hlines, hread⟩
    obtain ⟨hlen, hfits⟩ := (hentries hlines).mp hread
    exact ⟨⟨exec_out_iff.mp hlines, hlen⟩, hfits⟩
  · rintro ⟨hbounded, hfits⟩
    have hlines := exec_out_iff.mpr hbounded.output
    exact ⟨hlines, (hentries hlines).mpr ⟨hbounded.entries, hfits⟩⟩

theorem parse_length (text : String) :
    (Ldif.parse text).length = min Ldif.MAX_ENTRIES (Ldif.parseWhole text).length := by
  rw [Ldif.parse_eq, List.length_take, List.length_map]

/-- A search that succeeded is not marked exactly if it printed less than
is kept, and fewer entries than are read. -/
theorem unmarked_iff (hrc : (ds.search q).rc = some 0) :
    (ldapi_search redact ds q).truncated = [] ↔
      PyStr.len (ds.search q).out < EXEC_MAX ∧ (returned ds q).length < Ldif.MAX_ENTRIES := by
  have hexec : (ds.search q).exec.rc = some 0 := hrc
  have hlen : PyStr.len (ds.search q).exec.out = min EXEC_MAX (PyStr.len (ds.search q).out) := by
    unfold Printed.exec PyStr.take PyStr.len
    rw [String.toList_ofList, List.length_take]
  have hmark : (ldapi_search redact ds q).truncated = [] ↔
      ¬ (EXEC_MAX ≤ PyStr.len (ds.search q).exec.out
        ∨ Ldif.MAX_ENTRIES ≤ (Ldif.parse (ds.search q).exec.out).length) := by
    unfold ldapi_search
    dsimp only
    rw [if_pos hexec]
    constructor
    · intro h hcut
      rw [if_pos ⟨hexec, hcut⟩] at h
      exact List.cons_ne_nil _ _ h
    · intro h
      exact if_neg fun hcut => h hcut.2
  rw [hmark, not_or, not_le, not_le, hlen, parse_length]
  constructor
  · rintro ⟨hout, hcount⟩
    have hout' : PyStr.len (ds.search q).out < EXEC_MAX := by omega
    rw [exec_out_iff.mpr hout'.le] at hcount
    refine ⟨hout', ?_⟩
    rw [returned, List.length_map]
    omega
  · rintro ⟨hout, hcount⟩
    rw [exec_out_iff.mpr hout.le]
    rw [returned, List.length_map] at hcount
    omega

/-- A search that succeeded and is not marked is in bounds. -/
theorem bounded_of_unmarked (hrc : (ds.search q).rc = some 0)
    (h : (ldapi_search redact ds q).truncated = []) : Bounded ds q := by
  obtain ⟨hout, hcount⟩ := (unmarked_iff hrc).mp h
  exact ⟨hout.le, hcount.le⟩

/-- So it is whole exactly if every entry fits. -/
theorem whole_iff_of_unmarked (hrc : (ds.search q).rc = some 0)
    (h : (ldapi_search redact ds q).truncated = []) :
    Whole redact ds q ↔ ∀ e ∈ returned ds q, e.Fits := by
  rw [whole_iff hrc]
  exact and_iff_right (bounded_of_unmarked hrc h)

/-! ## What the checks read -/

def principalsReads (ds : LocalDs) : List Query :=
  match ds.ldapi with
  | .error _ => []
  | .ok basedn => [principalsQuery basedn, managersQuery basedn]

def agreementsReads (ds : LocalDs) : List Query :=
  match ds.ldapi with
  | .error _ => []
  | .ok basedn =>
      [agreementsQuery, replicasQuery, ruvQuery basedn, ruvQuery "o=ipaca", cleanTasksQuery]

/-- The answer is called complete. -/
def Complete (res : CheckResult) : Prop := getField res.fields "complete" = .bool true

/-- The servers whose LDAP service has a principal, of all that was returned. -/
def returnedPrincipals (ds : LocalDs) : List String :=
  match ds.ldapi with
  | .error _ => []
  | .ok basedn => principalHosts (returned ds (principalsQuery basedn))

/-- The servers that may send updates, of all that was returned. -/
def returnedManagers (ds : LocalDs) : List String :=
  match ds.ldapi with
  | .error _ => []
  | .ok basedn => managerHosts (returned ds (managersQuery basedn))

/-- Both lists of `repl.principals` were read, and no mark was left. -/
structure ListsRead (redact : String → String) (ds : LocalDs) (basedn : String)
    (res : CheckResult) : Prop where
  ldapi : ds.ldapi = .ok basedn
  read : ∀ q ∈ principalsReads ds, (ds.search q).rc = some 0
  unmarked : ∀ q ∈ principalsReads ds, (ldapi_search redact ds q).truncated = []
  principals : getField res.fields "ldap_principals" = .list ((sortedSet
    (principalHosts (ldapi_search redact ds (principalsQuery basedn)).entries)).map .str)
  managers : getField res.fields "replication_managers" = .list ((sortedSet
    (managerHosts (ldapi_search redact ds (managersQuery basedn)).entries)).map .str)
  others : getField res.fields "managers" = .null

theorem principals_read {params : Dict} (h : Complete (repl_principals redact ds params)) :
    ∃ basedn, ListsRead redact ds basedn (repl_principals redact ds params) := by
  unfold Complete repl_principals at h
  rcases hbase : ds.ldapi with err | basedn
  · rw [hbase] at h
    cases h
  · rw [hbase] at h
    dsimp only at h
    split at h
    · cases h
    · rename_i hfailed
      have hps : (ds.search (principalsQuery basedn)).rc = some 0 := not_not.mp hfailed
      have hcomplete : principalsComplete ds (ldapi_search redact ds (principalsQuery basedn))
          (ldapi_search redact ds (managersQuery basedn)) = true := Value.bool.inj h
      unfold principalsComplete at hcomplete
      rw [Bool.and_eq_true, Bool.and_eq_true, List.isEmpty_iff, List.append_eq_nil_iff,
        beq_iff_eq, beq_iff_eq] at hcomplete
      obtain ⟨⟨-, hms⟩, hpsmark, hmsmark⟩ := hcomplete
      have hreads : principalsReads ds = [principalsQuery basedn, managersQuery basedn] := by
        rw [principalsReads, hbase]
      refine ⟨basedn, hbase, ?_, ?_, ?_, ?_, ?_⟩
      · rw [hreads]
        simpa using ⟨hps, hms⟩
      · rw [hreads]
        simpa using ⟨hpsmark, hmsmark⟩
      · rw [repl_principals, hbase]
        dsimp only
        rw [if_neg hfailed]
        rfl
      · rw [repl_principals, hbase]
        dsimp only
        rw [if_neg hfailed, if_pos hms]
        rfl
      · rw [repl_principals, hbase]
        dsimp only
        rw [if_neg hfailed]
        rfl

theorem truncated_cases : (ldapi_search redact ds q).truncated = []
    ∨ (ldapi_search redact ds q).truncated = [q.base] := by
  unfold ldapi_search
  exact (ite_eq_or_eq _ _ _).symm

/-- A read of the mapping tree is not marked. -/
theorem agreements_read {ε : Type} {params : Dict} {res : CheckResult}
    (h : (repl_agreements redact ds params : Except (Exc ε) CheckResult) = .ok res)
    (hcomplete : Complete res) (hq : q ∈ agreementsReads ds) (hbase : q.base = MAPPING_TREE) :
    (ldapi_search redact ds q).truncated = [] := by
  unfold agreementsReads at hq
  rcases hldapi : ds.ldapi with err | basedn
  · rw [hldapi] at hq
    cases hq
  · rw [hldapi] at hq
    unfold repl_agreements at h
    rw [hldapi] at h
    dsimp only at h
    split at h
    · obtain rfl := pure_ok.mp h
      cases hcomplete
    · obtain ⟨sorted, -, h⟩ := bind_ok.mp h
      obtain ⟨replicas, -, h⟩ := bind_ok.mp h
      obtain rfl := pure_ok.mp h
      have hall := Value.bool.inj hcomplete
      unfold agreementsComplete at hall
      rw [Bool.and_eq_true, Bool.and_eq_true, Bool.not_eq_true', List.contains_eq_mem,
        decide_eq_false_iff_not] at hall
      have hmarks := hall.1.2
      simp only [List.mem_append, not_or] at hmarks
      have hnot : MAPPING_TREE ∉ (ldapi_search redact ds q).truncated := by
        simp only [List.mem_cons, List.not_mem_nil, or_false] at hq
        rcases hq with rfl | rfl | rfl | rfl | rfl
        · exact hmarks.1.1.1.1
        · exact hmarks.1.1.1.2
        · exact hmarks.1.1.2
        · exact hmarks.1.2
        · exact hmarks.2
      rw [← hbase] at hnot
      refine truncated_cases.resolve_right fun hmark => hnot ?_
      rw [hmark]
      exact List.mem_singleton_self _

/-! ## What is concluded -/

/-- The record a visit of the step `principals` left, with this directory read. -/
def PrincipalsRecord (redact : String → String) (ds : LocalDs) (r : Record) : Prop :=
  ∃ (σ : Type) (env : Planner.Env σ) (st : Planner.RunState σ) (spec : CheckSpec)
    (record : Record) (base : Planner.Context) (v : Planner.Visited σ),
    (∀ res, env.Gives "repl.principals" res → ∃ params, res = repl_principals redact ds params)
      ∧ record.outcome = .skipped
      ∧ Planner.visit env st spec principalsStep record base = .ok v ∧ r = v.record

theorem orElse_list (xs : List Value) : orElse (.list xs) (.list []) = .list xs := by
  cases xs with
  | nil => rfl
  | cons x xs => rfl

/-- The lists a record of `principals` has are those of the check. -/
theorem PrincipalsRecord.lists {t : Trace} {r : Record} (hr : t.get "principals" = some r)
    (h : PrincipalsRecord redact ds r)
    (hcomplete : isTrue (factOf t "principals" "complete") = true) :
    ∃ basedn res, ListsRead redact ds basedn res
      ∧ (∀ ps, factOf t "principals" "ldap_principals" = .list ps →
        getField res.fields "ldap_principals" = .list ps)
      ∧ ∀ ms, factOf t "principals" "managers" = .list ms →
        getField res.fields "replication_managers" = .list ms := by
  obtain ⟨σ, env, st, spec, record, base, v, hgives, hskip, hvisit, rfl⟩ := h
  unfold factOf at hcomplete ⊢
  rw [hr] at hcomplete ⊢
  dsimp only at hcomplete ⊢
  split at hcomplete
  · cases hcomplete
  · rename_i hrun
    rw [if_neg hrun, if_neg hrun]
    obtain ⟨res, hres, hholds⟩ := (Planner.visit_holds hskip hvisit).resolve_left hrun
    obtain ⟨params, rfl⟩ := hgives res hres
    obtain ⟨ctx, c, hc, -, hfacts⟩ := hholds.made
    rw [hholds.fields, hfacts] at hcomplete ⊢
    have hread := @principals_read redact ds params
    generalize repl_principals redact ds params = res at hread hcomplete hc ⊢
    rcases Planner.interpret_facts hc with hnone | ⟨c', hc', hsome⟩
    · -- the answer was not classified: it has the fields alone
      rw [hnone] at hcomplete ⊢
      obtain ⟨basedn, hread⟩ := hread (beq_iff_eq.mp hcomplete)
      refine ⟨basedn, res, hread, fun ps hps => hps, fun ms hms => ?_⟩
      have hnull := hread.others.symm.trans hms
      cases hnull
    · have hc'' : c_principals res ctx = .ok c' := hc'
      cases hc''
      rw [hsome] at hcomplete ⊢
      have hfield : isTrue (getField res.fields "complete") = true :=
        Value.bool.inj (beq_iff_eq.mp hcomplete)
      obtain ⟨basedn, hread⟩ := hread (beq_iff_eq.mp hfield)
      refine ⟨basedn, res, hread, fun ps hps => ?_, fun ms hms => ?_⟩
      · have hps : orElse (getField res.fields "ldap_principals") (.list []) = .list ps := hps
        rw [hread.principals] at hps ⊢
        rwa [orElse_list] at hps
      · have hms : orElse (getField res.fields "replication_managers") (.list []) = .list ms := hms
        rw [hread.managers] at hms ⊢
        rwa [orElse_list] at hms

theorem among_sortedSet (v : Value) (names : List String) :
    among v ((sortedSet names).map .str) = among v (names.map .str) := by
  unfold among
  rw [Bool.eq_iff_iff, List.any_eq_true, List.any_eq_true]
  simp [Topology.mem_sortedSet]

/-- A name that is missed in the lists of a whole read is not in what the
server returned. -/
theorem not_returned {t : Trace}
    (hrecord : ∀ r, t.get "principals" = some r → PrincipalsRecord redact ds r)
    (hwhole : ∀ q ∈ principalsReads ds, Whole redact ds q) :
    (∀ me, notAManager t me = true → among me ((returnedManagers ds).map .str) = false)
      ∧ ∀ a, principalAbsent t a = true →
        among a.consumer ((returnedPrincipals ds).map .str) = false := by
  have hlists := fun r hr hc => (hrecord r hr).lists (t := t) hr hc
  have hsome : isTrue (factOf t "principals" "complete") = true →
      ∃ r, t.get "principals" = some r := by
    intro hc
    rcases hr : t.get "principals" with _ | r
    · rw [factOf, hr] at hc
      cases hc
    · exact ⟨r, rfl⟩
  constructor
  · intro me h
    unfold notAManager at h
    split at h
    · rename_i ms hms
      rw [Bool.and_eq_true, Bool.not_eq_true'] at h
      obtain ⟨r, hr⟩ := hsome h.1
      obtain ⟨basedn, res, hread, -, hmanagers⟩ := hlists r hr h.1
      obtain rfl := Value.list.inj ((hmanagers ms hms).symm.trans hread.managers)
      have hq : managersQuery basedn ∈ principalsReads ds := by
        simp [principalsReads, hread.ldapi]
      have hall : returnedManagers ds = managerHosts (returned ds (managersQuery basedn)) := by
        rw [returnedManagers, hread.ldapi]
      rw [hall, ← among_sortedSet, ← (hwhole _ hq).entries]
      exact h.2
    · cases h
  · intro a h
    unfold principalAbsent at h
    split at h
    · rename_i ps hps
      rw [Bool.and_eq_true, Bool.not_eq_true'] at h
      obtain ⟨r, hr⟩ := hsome h.1
      obtain ⟨basedn, res, hread, hprincipals, -⟩ := hlists r hr h.1
      obtain rfl := Value.list.inj ((hprincipals ps hps).symm.trans hread.principals)
      have hq : principalsQuery basedn ∈ principalsReads ds := by
        simp [principalsReads, hread.ldapi]
      have hall : returnedPrincipals ds = principalHosts (returned ds (principalsQuery basedn)) := by
        rw [returnedPrincipals, hread.ldapi]
      rw [hall, ← among_sortedSet, ← (hwhole _ hq).entries]
      exact h.2
    · cases h

/-- A diagnosis that a name is missing rests on a list that misses it. -/
theorem diagnose_missed {t : Trace} {ago : String → Option ℚ} {inputs : Dict} {out : Diagnosed}
    (h : diagnose t ago inputs = .ok out) {d : ReplDiagnosis} (hd : d ∈ out.diags) :
    NameMissed t (factOf t "server" "host") d := by
  unfold diagnose at h
  split at h
  · obtain rfl : ({} : Diagnosed) = out := by injection h
    cases hd
  · obtain ⟨⟨states, b⟩, hcollect, h⟩ := bind_ok.mp h
    obtain rfl := pure_ok.mp h
    obtain ⟨as, more, has, hmore, htold⟩ := collect_told.of_ok hcollect
    obtain ⟨items, -, hlooked⟩ := collect_goes.of_ok hcollect
    obtain ⟨x, hx, role, rfl⟩ := (roles_same htold.wired).back d hd
    have hall : ∀ x ∈ b.diags, NameMissed t (factOf t "server" "host") x := by
      refine Runs.diags hlooked.goes (fun d hd _ => hd.1.missed) ?_ ?_ ?_
      · exact fun _ x _ hx _ => ⟨hx.manager, hx.principal⟩
      · intro x x' hx hfixed _
        have hsubject := congrArg ReplDiagnosis.subject hfixed
        have hcode := congrArg ReplDiagnosis.code hfixed
        change x'.subject = x.subject at hsubject
        change x'.code = x.code at hcode
        refine ⟨fun h => hx.manager (hcode ▸ h), fun h => ?_⟩
        rw [hsubject]
        exact hx.principal (hcode ▸ h)
      · exact fun d hd => nomatch hd
    exact ⟨(hall x hx).manager, (hall x hx).principal⟩

/-- A name is reported missing only if nothing the server returned has it. -/
def Justified (redact : String → String) (ds : LocalDs) : Prop :=
  ∀ t ago inputs out, (∀ r, t.get "principals" = some r → PrincipalsRecord redact ds r) →
    diagnose t ago inputs = .ok out → ∀ d ∈ out.diags,
      (d.code = .notAReplicationManager →
        among (factOf t "server" "host") ((returnedManagers ds).map .str) = false)
      ∧ (d.code = .peerLdapPrincipalMissing → ∃ realm a, d.subject = principalSubject realm a
        ∧ among a.consumer ((returnedPrincipals ds).map .str) = false)

theorem justified_of_whole (hwhole : ∀ q ∈ principalsReads ds, Whole redact ds q) :
    Justified redact ds := by
  intro t ago inputs out hrecord hout d hd
  obtain ⟨hmanager, hprincipal⟩ := not_returned hrecord hwhole
  have hmissed := diagnose_missed hout hd
  refine ⟨fun hcode => hmanager _ (hmissed.manager hcode), fun hcode => ?_⟩
  obtain ⟨realm, a, hsubject, habsent⟩ := hmissed.principal hcode
  exact ⟨realm, a, hsubject, hprincipal a habsent⟩

/-- A directory where the group of replication managers has these lines. -/
def groupDs (lines : List Char) : LocalDs where
  ldapi := .ok "dc=t"
  whoami := { rc := some 0, out := "dn: cn=Directory Manager" }
  search := fun q =>
    { rc := some 0
      out := if q = managersQuery "dc=t" then String.ofList lines else "" }

/-- What the search for the group returns. -/
def groupEntries (lines : List Char) : List Ldif.Entry :=
  (Ldif.readWhole (Lines.unfoldChars (Lines.splitChars lines)) {}).close.entries

theorem groupDs_out (lines : List Char) :
    ((groupDs lines).search (managersQuery "dc=t")).out = String.ofList lines := by
  simp [groupDs]

theorem groupDs_returned (lines : List Char) :
    returned (groupDs lines) (managersQuery "dc=t") = (groupEntries lines).map dropSecrets := by
  rw [returned, groupDs_out, Ldif.parseWhole, String.toList_ofList]
  rfl

theorem groupDs_empty {q : Query} (hq : q ≠ managersQuery "dc=t") (lines : List Char) :
    ((groupDs lines).search q).out = "" := if_neg hq

theorem groupDs_nothing {q : Query} (hq : q ≠ managersQuery "dc=t") (lines : List Char) :
    returned (groupDs lines) q = [] := by
  rw [returned, groupDs_empty hq]
  rfl

theorem groupDs_dm (lines : List Char) : whoami_dm (groupDs lines) = some true :=
  show whoami_dm (groupDs []) = some true by decide

theorem groupDs_complete {lines : List Char} (hlen : lines.length < EXEC_MAX)
    (hcount : (groupEntries lines).length < Ldif.MAX_ENTRIES) (params : Dict) :
    Complete (repl_principals id (groupDs lines) params) := by
  have hps : (ldapi_search id (groupDs lines) (principalsQuery "dc=t")).truncated = [] := by
    refine (unmarked_iff rfl).mpr ?_
    rw [groupDs_empty (by decide), groupDs_nothing (by decide)]
    decide
  have hms : (ldapi_search id (groupDs lines) (managersQuery "dc=t")).truncated = [] := by
    refine (unmarked_iff rfl).mpr ?_
    rw [groupDs_out, groupDs_returned, PyStr.len, String.toList_ofList, List.length_map]
    exact ⟨hlen, hcount⟩
  have hall : principalsComplete (groupDs lines)
      (ldapi_search id (groupDs lines) (principalsQuery "dc=t"))
      (ldapi_search id (groupDs lines) (managersQuery "dc=t")) = true := by
    rw [principalsComplete, hps, hms, groupDs_dm]
    rfl
  exact congrArg Value.bool hall

def managerLine : List Char := "member: krbprincipalname=ldap/a.b@T\n".toList

def small : LocalDs := groupDs ("dn: g\n".toList ++ managerLine)

/-- The last of 65 members is dropped, and the list called complete. -/
def crowded : LocalDs :=
  groupDs ("dn: g\n".toList ++ (List.replicate 64 "member: x\n".toList).flatten ++ managerLine)

end IpaDiagnose.Replication
