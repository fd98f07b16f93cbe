import IpaDiagnose.Evidence.Healthcheck

/-!
# The health check degrades visibly

Whatever a run prints or a recorded output holds: an error is recorded, or
every result is a finding and the core services were checked. Two things
are left open: a recorded output can end the collection with an exception,
and a position put after an id can give the id of another result.
`degrades_iff` says when.
-/

namespace IpaDiagnose.Healthcheck

open Py (Value Dict)

/-! ## Positions after names -/

theorem numbered_toList (name : String) (idx : Nat) :
    (numbered name idx).toList = name.toList ++ '#' :: Nat.toDigits 10 idx := by
  simp [numbered]

/-- The position can be read off the end. -/
theorem numbered_position {name name' : String} {idx idx' : Nat}
    (h : numbered name idx = numbered name' idx') : idx = idx' := by
  have hdigits : ∀ n, ∀ c ∈ (Nat.toDigits 10 n).reverse, (c != '#') = true := by
    intro n c hc
    have hdigit := Nat.isDigit_of_mem_toDigits (by decide) (by decide) (List.mem_reverse.mp hc)
    rw [bne_iff_ne]
    rintro rfl
    exact absurd hdigit (by decide)
  have hend : ∀ (s : List Char) (n : Nat),
      ((s ++ '#' :: Nat.toDigits 10 n).reverse.takeWhile (· != '#')).reverse
        = Nat.toDigits 10 n := by
    intro s n
    rw [List.reverse_append, List.reverse_cons, List.append_assoc,
      List.takeWhile_append_of_pos (hdigits n)]
    simp
  have hchars := congrArg String.toList h
  rw [numbered_toList, numbered_toList] at hchars
  have hsame : Nat.toDigits 10 idx = Nat.toDigits 10 idx' := by
    rw [← hend name.toList idx, hchars, hend]
  rw [← Nat.ofDigitChars_ten_toDigits (n := idx), hsame, Nat.ofDigitChars_ten_toDigits]

/-! ## Ids -/

/-- A result by its position and its name. -/
abbrev Named := Nat × String

/-- The ids of some results, the last one first. -/
def ids : List Named → List String
  | [] => []
  | (idx, name) :: earlier => findingId (ids earlier) idx name :: ids earlier

/-- A text is used by earlier results: it is the name of one, or a name
that was used before with the position of the result that repeats it. -/
def Taken : List Named → String → Prop
  | [], _ => False
  | (idx, name) :: earlier, id =>
      name = id ∨ (Taken earlier name ∧ numbered name idx = id) ∨ Taken earlier id

/-- No name that is used before gets, with its position, the name of an
earlier result. -/
def Apart : List Named → Prop
  | [] => True
  | (idx, name) :: earlier =>
      Apart earlier ∧ (Taken earlier name → ∀ e ∈ earlier, e.2 ≠ numbered name idx)

theorem mem_ids : ∀ {results : List Named} {id : String}, id ∈ ids results ↔ Taken results id
  | [], id => by simp [ids, Taken]
  | (idx, name) :: earlier, id => by
      rw [ids, Taken, List.mem_cons, mem_ids, findingId]
      by_cases hmem : name ∈ ids earlier
      · have hname : Taken earlier name := mem_ids.mp hmem
        rw [if_pos hmem]
        constructor
        · rintro (rfl | h)
          · exact .inr (.inl ⟨hname, rfl⟩)
          · exact .inr (.inr h)
        · rintro (rfl | ⟨-, rfl⟩ | h)
          · exact .inr hname
          · exact .inl rfl
          · exact .inr h
      · have hname : ¬ Taken earlier name := fun h => hmem (mem_ids.mpr h)
        rw [if_neg hmem]
        constructor
        · rintro (rfl | h)
          · exact .inl rfl
          · exact .inr (.inr h)
        · rintro (rfl | ⟨h, -⟩ | h)
          · exact .inl rfl
          · exact absurd h hname
          · exact .inr h

/-- With a position no earlier result has, only a name can be the same. -/
theorem taken_numbered : ∀ {results : List Named} {idx : Nat} {name : String},
    (∀ e ∈ results, e.1 ≠ idx) →
      (Taken results (numbered name idx) ↔ ∃ e ∈ results, e.2 = numbered name idx)
  | [], idx, name, _ => by simp [Taken]
  | (j, other) :: earlier, idx, name, h => by
      have hearlier : Taken earlier (numbered name idx) ↔ ∃ e ∈ earlier, e.2 = numbered name idx :=
        taken_numbered fun e he => h e (List.mem_cons_of_mem _ he)
      have hne : j ≠ idx := h _ List.mem_cons_self
      rw [Taken, hearlier]
      constructor
      · rintro (heq | ⟨-, heq⟩ | ⟨e, he, heq⟩)
        · exact ⟨_, List.mem_cons_self, heq⟩
        · exact absurd (numbered_position heq) hne
        · exact ⟨e, List.mem_cons_of_mem _ he, heq⟩
      · rintro ⟨e, he, heq⟩
        rcases List.mem_cons.mp he with rfl | he
        · exact .inl heq
        · exact .inr (.inr ⟨e, he, heq⟩)

/-- The ids are distinct just where names and positions keep apart. -/
theorem ids_nodup_iff : ∀ {results : List Named}, (results.map Prod.fst).Nodup →
    ((ids results).Nodup ↔ Apart results)
  | [], _ => by simp [ids, Apart]
  | (idx, name) :: earlier, h => by
      rw [List.map_cons, List.nodup_cons] at h
      have hfresh : ∀ e ∈ earlier, e.1 ≠ idx := by
        rintro e he rfl
        have hmem := List.mem_map_of_mem (f := Prod.fst) he
        exact h.1 hmem
      rw [ids, Apart, List.nodup_cons, ids_nodup_iff h.2, findingId, and_comm]
      refine and_congr_right fun _ => ?_
      by_cases hmem : name ∈ ids earlier
      · rw [if_pos hmem, mem_ids, taken_numbered hfresh]
        exact ⟨fun hnot _ e he heq => hnot ⟨e, he, heq⟩, fun hall ⟨e, he, heq⟩ =>
          hall (mem_ids.mp hmem) e he heq⟩
      · rw [if_neg hmem]
        exact ⟨fun _ htaken => absurd (mem_ids.mpr htaken) hmem, fun _ => hmem⟩

/-! ## Findings -/

/-- The results that have a name, in their order. -/
def namedOf (results : List (Value × Nat)) : List Named :=
  results.filterMap fun result =>
    match result.1 with
    | .dict entry => some (result.2, nameOf result.2 entry)
    | _ => none

/-- What was made of the results so far. -/
structure Parsed.Reads (p : Parsed) (results : List (Value × Nat)) : Prop where
  used : p.used_ids = ids (namedOf results).reverse
  named : p.findings.map Finding.findingId = p.used_ids.reverse
  raw : p.findings.map (fun f => Value.dict f.raw) = (results.map Prod.fst).filter Value.isDict

theorem Parsed.Reads.entry {p : Parsed} {results : List (Value × Nat)} (h : p.Reads results)
    (result : Value × Nat) : (p.entry result).Reads (results ++ [result]) := by
  obtain ⟨v, idx⟩ := result
  have hskip : v.isDict = false → p.entry (v, idx) = p ∧ namedOf [(v, idx)] = [] := by
    intro hv
    cases v with
    | dict entry => cases hv
    | _ => exact ⟨rfl, rfl⟩
  cases hdict : v.isDict with
  | false =>
      obtain ⟨hentry, hnamed⟩ := hskip hdict
      rw [hentry]
      refine ⟨?_, h.named, ?_⟩
      · rw [namedOf, List.filterMap_append, ← namedOf, ← namedOf, hnamed, List.append_nil]
        exact h.used
      · simp [h.raw, hdict]
  | true =>
      cases v with
      | dict entry =>
          have hnamed : namedOf (results ++ [(.dict entry, idx)])
              = namedOf results ++ [(idx, nameOf idx entry)] := by
            rw [namedOf, List.filterMap_append, ← namedOf]
            rfl
          refine ⟨?_, ?_, ?_⟩
          · rw [hnamed, List.reverse_append]
            show _ :: p.used_ids = _
            rw [h.used]
            rfl
          · show (p.findings ++ [_]).map _ = (_ :: p.used_ids).reverse
            rw [List.map_append, h.named, List.reverse_cons]
            rfl
          · show (p.findings ++ [_]).map _ = _
            rw [List.map_append, h.raw, List.map_append, List.filter_append]
            rfl
      | _ => cases hdict

theorem Parsed.Reads.foldl {p : Parsed} {results : List (Value × Nat)} (h : p.Reads results)
    (rest : List (Value × Nat)) : (rest.foldl Parsed.entry p).Reads (results ++ rest) := by
  induction rest generalizing p results with
  | nil => rwa [List.append_nil]
  | cons result rest ih =>
      have hrest := ih (h.entry result)
      rwa [List.append_assoc] at hrest

/-- The results of an array by name. -/
def names (raw_results : List Value) : List Named := namedOf raw_results.zipIdx

theorem parse_reads (raw_results : List Value) :
    (raw_results.zipIdx.foldl Parsed.entry {}).Reads raw_results.zipIdx := by
  have hnone : Parsed.Reads {} [] := ⟨rfl, rfl, rfl⟩
  exact hnone.foldl raw_results.zipIdx

/-- The findings are the results that can be used, each once. -/
theorem parse_raw (raw_results : List Value) :
    (parseHealthcheckResults raw_results).map (fun f => Value.dict f.raw)
      = raw_results.filter Value.isDict := by
  rw [parseHealthcheckResults, (parse_reads raw_results).raw, List.zipIdx_map_fst]

theorem names_positions (raw_results : List Value) :
    ((names raw_results).reverse.map Prod.fst).Nodup := by
  rw [List.map_reverse, List.nodup_reverse]
  have hsub : ((names raw_results).map Prod.fst).Sublist (raw_results.zipIdx.map Prod.snd) := by
    unfold names namedOf
    induction raw_results.zipIdx with
    | nil => exact .slnil
    | cons result results ih =>
        obtain ⟨v, idx⟩ := result
        cases v with
        | dict entry => exact ih.cons_cons _
        | _ => exact ih.cons _
  refine hsub.nodup ?_
  rw [List.zipIdx_map_snd]
  exact List.nodup_range' ..

theorem parse_ids_nodup_iff (raw_results : List Value) :
    ((parseHealthcheckResults raw_results).map Finding.findingId).Nodup
      ↔ Apart (names raw_results).reverse := by
  rw [parseHealthcheckResults, (parse_reads raw_results).named, List.nodup_reverse,
    (parse_reads raw_results).used, ← names, ids_nodup_iff (names_positions raw_results)]

/-! ## Errors -/

/-- The results that are read: of a run that ended as expected, or of a
recorded output. -/
def resultsOf (loads : String → Loaded) : Source → Option (List Value)
  | .live (.finished proc) =>
      if proc.returncode ≠ 0 ∧ proc.returncode ≠ 1 then none
      else if PyStr.strip proc.stdout = "" then none
      else (parseHealthcheckJsonText loads proc.stdout).toOption
  | .replay _ (.content bytes) =>
      (readText bytes).bind fun text =>
        match loads text with
        | .value (.list raw_results) => some raw_results
        | _ => none
  | _ => none

/-- A recorded output is a text, and a document or something that is no
JSON. -/
def Readable (loads : String → Loaded) : Source → Prop
  | .replay _ (.content bytes) =>
      ∃ text, readText bytes = some text ∧ ∀ message,
        loads text ≠ .valueError message ∧ loads text ≠ .recursionError message
  | _ => True

/-- An error of the health check is recorded. -/
def Added.Failed (added : Added) : Prop := ∃ e ∈ added.errors, e.collector = "ipa-healthcheck"

theorem failed_failed (message : String) (permission : Bool) :
    (failed message permission).Failed := ⟨_, List.mem_singleton.mpr rfl, rfl⟩

/-- Every result is a finding, and one is of the core services. -/
def Added.Complete (added : Added) (raw_results : List Value) : Prop :=
  added.findings.map (fun f => Value.dict f.raw) = raw_results
    ∧ ∃ f ∈ added.findings, coreServices f = true

theorem addResults_degrades (live : Bool) (none_usable : String) (raw_results : List Value) :
    (addResults live none_usable raw_results).Failed
      ∨ (addResults live none_usable raw_results).Complete raw_results := by
  unfold addResults
  dsimp only
  by_cases hnone : raw_results.filter Value.isDict = []
  · rw [if_pos hnone]
    exact .inl (failed_failed ..)
  · rw [if_neg hnone]
    by_cases hlen : (raw_results.filter Value.isDict).length = raw_results.length
    · by_cases hcore : (parseHealthcheckResults raw_results).any coreServices = true
      · have hall : raw_results.filter Value.isDict = raw_results :=
          List.filter_sublist.eq_of_length hlen
        exact .inr ⟨(parse_raw raw_results).trans hall, List.any_eq_true.mp hcore⟩
      · rw [if_neg hcore]
        exact .inl ⟨_, List.mem_append_left _ (List.mem_append_right _
          (List.mem_singleton.mpr rfl)), rfl⟩
    · rw [if_pos hlen]
      exact .inl ⟨_, List.mem_append_left _ (List.mem_append_left _
        (List.mem_singleton.mpr rfl)), rfl⟩

theorem addResults_nodup_iff (live : Bool) (none_usable : String) (raw_results : List Value) :
    ((addResults live none_usable raw_results).findings.map Finding.findingId).Nodup
      ↔ Apart (names raw_results).reverse := by
  rw [← parse_ids_nodup_iff]
  unfold addResults
  dsimp only
  by_cases hnone : raw_results.filter Value.isDict = []
  · rw [if_pos hnone]
    have hfindings : parseHealthcheckResults raw_results = [] := by
      rw [← List.map_eq_nil_iff, parse_raw, hnone]
    rw [hfindings]
    rfl
  · rw [if_neg hnone]

/-- The collection fails and reads nothing, or adds what it read, or ends
with an exception. -/
theorem collect_cases (loads : String → Loaded) (source : Source) :
    (Readable loads source ∧ resultsOf loads source = none
        ∧ ∃ message permission, collectHealthcheck loads source = .ok (failed message permission))
      ∨ (Readable loads source ∧ ∃ live none_usable raw_results,
          resultsOf loads source = some raw_results
          ∧ collectHealthcheck loads source = .ok (addResults live none_usable raw_results))
      ∨ (¬ Readable loads source ∧ ∃ e, collectHealthcheck loads source = .error e) := by
  cases source with
  | live run =>
      cases run with
      | notInstalled => exact .inl ⟨trivial, rfl, _, _, rfl⟩
      | notRun message => exact .inl ⟨trivial, rfl, _, _, rfl⟩
      | finished proc =>
          unfold collectHealthcheck collectLive resultsOf
          dsimp only
          by_cases hcode : proc.returncode ≠ 0 ∧ proc.returncode ≠ 1
          · rw [if_pos hcode, if_pos hcode]
            exact .inl ⟨trivial, rfl, _, _, rfl⟩
          · rw [if_neg hcode, if_neg hcode]
            by_cases hempty : PyStr.strip proc.stdout = ""
            · rw [if_pos hempty, if_pos hempty]
              exact .inl ⟨trivial, rfl, _, _, rfl⟩
            · rw [if_neg hempty, if_neg hempty]
              cases parseHealthcheckJsonText loads proc.stdout with
              | error e => exact .inl ⟨trivial, rfl, _, _, rfl⟩
              | ok raw_results => exact .inr (.inl ⟨trivial, _, _, _, rfl, rfl⟩)
  | replay fixture_path file =>
      cases file with
      | missing => exact .inl ⟨trivial, rfl, _, _, rfl⟩
      | unreadable message => exact .inl ⟨trivial, rfl, _, _, rfl⟩
      | content bytes =>
          unfold collectHealthcheck collectReplay resultsOf Readable
          dsimp only
          cases readText bytes with
          | none => exact .inr (.inr ⟨nofun, _, rfl⟩)
          | some text =>
              dsimp only [Option.bind_some]
              cases hloads : loads text with
              | valueError e =>
                  refine .inr (.inr ⟨?_, _, rfl⟩)
                  rintro ⟨text', htext, hnot⟩
                  obtain rfl := Option.some.inj htext
                  exact (hnot e).1 hloads
              | recursionError e =>
                  refine .inr (.inr ⟨?_, _, rfl⟩)
                  rintro ⟨text', htext, hnot⟩
                  obtain rfl := Option.some.inj htext
                  exact (hnot e).2 hloads
              | decodeError e =>
                  exact .inl ⟨⟨text, rfl, fun m => by simp [hloads]⟩, rfl, _, _, rfl⟩
              | value v =>
                  have hreadable : ∃ text', some text = some text' ∧ ∀ message,
                      loads text' ≠ .valueError message ∧ loads text' ≠ .recursionError message :=
                    ⟨text, rfl, fun m => by simp [hloads]⟩
                  cases v with
                  | list raw_results => exact .inr (.inl ⟨hreadable, _, _, _, rfl, rfl⟩)
                  | _ => exact .inl ⟨hreadable, rfl, _, _, rfl⟩

/-! ## Visible degradation -/

/-- No exception; an error, or all results as findings; and no id twice. -/
def Degrades (loads : String → Loaded) (source : Source) : Prop :=
  ∃ added, collectHealthcheck loads source = .ok added
    ∧ (added.Failed ∨ ∃ raw_results, resultsOf loads source = some raw_results
        ∧ added.Complete raw_results)
    ∧ (added.findings.map Finding.findingId).Nodup

/-- The health check degrades visibly just where a recorded output can be
read and no position makes a name out of another. -/
theorem degrades_iff (loads : String → Loaded) (source : Source) :
    Degrades loads source ↔ Readable loads source
      ∧ ∀ raw_results, resultsOf loads source = some raw_results →
        Apart (names raw_results).reverse := by
  rcases collect_cases loads source with ⟨hreadable, hnone, m, p, hcollect⟩
    | ⟨hreadable, live, m, raw_results, hresults, hcollect⟩ | ⟨hnot, e, hcollect⟩
  · refine ⟨fun _ => ⟨hreadable, fun raw h => ?_⟩, fun _ => ⟨_, hcollect, .inl ?_, ?_⟩⟩
    · rw [hnone] at h
      cases h
    · exact failed_failed m p
    · exact List.nodup_nil
  · constructor
    · rintro ⟨added, hadded, -, hnodup⟩
      rw [hcollect] at hadded
      obtain rfl := Except.ok.inj hadded
      refine ⟨hreadable, fun raw h => ?_⟩
      obtain rfl := Option.some.inj (hresults.symm.trans h)
      exact (addResults_nodup_iff live m raw_results).mp hnodup
    · rintro ⟨-, hapart⟩
      refine ⟨_, hcollect, ?_, (addResults_nodup_iff live m raw_results).mpr
        (hapart raw_results hresults)⟩
      exact (addResults_degrades live m raw_results).imp_right fun h => ⟨_, hresults, h⟩
  · constructor
    · rintro ⟨added, hadded, -⟩
      rw [hcollect] at hadded
      cases hadded
    · exact fun h => absurd h.1 hnot

namespace Repeated

/-- Three results, the last of which repeats the id of the second and gets
that of the first. -/
def results : List Value :=
  [.dict [("uuid", .str "x#2")], .dict [("uuid", .str "x")], .dict [("uuid", .str "x")]]

def text : String :=
  "[\x7b\"uuid\":\"x#2\"\x7d,\x7b\"uuid\":\"x\"\x7d,\x7b\"uuid\":\"x\"\x7d]"

def loads (document : String) : Loaded :=
  if document = text then .value (.list results) else .decodeError ""

def source : Source := .replay "r" (.content (Bytes.encode text.toList))

theorem collects : ∃ message,
    collectHealthcheck loads source = .ok (addResults false message results) := by
  have hread : readText (Bytes.encode text.toList) = some text := by decide +kernel
  refine ⟨"fixture " ++ ("r" ++ "/healthcheck.json") ++ " contains no usable results", ?_⟩
  simp [collectHealthcheck, collectReplay, source, hread, loads]

theorem not_apart : ¬ Apart (names results).reverse := by
  have hnames : (names results).reverse = [(2, "x"), (1, "x"), (0, "x#2")] := by decide +kernel
  rw [hnames]
  rintro ⟨-, h⟩
  exact h (.inl rfl) (0, "x#2") (by simp) (by decide)

end Repeated

/-- An id is given twice, and a byte that is no text ends the collection. -/
theorem ids_shared_and_bytes_raise : ¬ Degrades Repeated.loads Repeated.source
    ∧ ∀ loads, ¬ Degrades loads (.replay "r" (.content [255])) := by
  constructor
  · rintro ⟨added, hadded, -, hnodup⟩
    obtain ⟨message, hcollect⟩ := Repeated.collects
    rw [hcollect] at hadded
    obtain rfl := Except.ok.inj hadded
    exact Repeated.not_apart ((addResults_nodup_iff ..).mp hnodup)
  · rintro loads ⟨added, hadded, -⟩
    have hread : readText [255] = none := by decide
    simp [collectHealthcheck, collectReplay, hread] at hadded

end IpaDiagnose.Healthcheck
