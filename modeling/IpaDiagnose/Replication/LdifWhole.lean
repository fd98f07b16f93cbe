import IpaDiagnose.Replication.Ldif

/-!
# What the reader's bounds leave out

The same reading without bounds. Reading with them gives the first
entries of it, each with the first values of its attributes, each value
cut: `parse_eq`. So nothing is left out exactly if all of it fits.
-/

namespace IpaDiagnose.Ldif

/-! ## The reading without bounds -/

/-- The key and the whole value of a line that is a field. -/
def wholeField? (line : Line) : Option (String × String) :=
  if line.head? = some '#' then none
  else
    match PyStr.cutChars [':'] line with
    | none => none
    | some (attr, rest) =>
        if attr = [] ∨ ' ' ∈ attr then none
        else (value? rest).map fun v => (PyStr.lower (String.ofList attr), String.ofList v)

def Entry.addWhole (e : Entry) (key value : String) : Entry :=
  { e with attrs := Assoc.put key ((e.attrs.lookup key).getD [] ++ [value]) e.attrs }

def Reading.wholeField (r : Reading) (key value : String) : Reading :=
  if key = "dn" then { r.close with cur := some ⟨value, []⟩ }
  else
    match r.cur with
    | none => r
    | some e => { r with cur := some (e.addWhole key value) }

def readWhole : List Line → Reading → Reading
  | [], r => r
  | line :: lines, r =>
      if isBlank line then readWhole lines r.close
      else
        match wholeField? line with
        | none => readWhole lines r
        | some (key, value) => readWhole lines (r.wholeField key value)

/-- All the entries of a text. -/
def parseWhole (text : String) : List Entry :=
  (readWhole (Lines.unfoldChars (Lines.splitChars text.toList)) {}).close.entries

/-! ## Cutting to the bounds -/

def cutValue (value : String) : String := PyStr.take value MAX_VALUE_LEN

def cutValues (values : List String) : List String := (values.map cutValue).take MAX_VALUES

def Entry.cut (e : Entry) : Entry :=
  ⟨cutValue e.dn, e.attrs.map fun a => (a.1, cutValues a.2)⟩

def Reading.cut (r : Reading) : Reading := ⟨r.entries.map Entry.cut, r.cur.map Entry.cut⟩

theorem field?_eq (line : Line) :
    field? line = (wholeField? line).map fun f => (f.1, cutValue f.2) := by
  unfold field? wholeField?
  by_cases hcomment : line.head? = some '#'
  · rw [if_pos hcomment, if_pos hcomment]
    rfl
  · rw [if_neg hcomment, if_neg hcomment]
    rcases PyStr.cutChars [':'] line with _ | ⟨attr, rest⟩
    · rfl
    · by_cases hattr : attr = [] ∨ ' ' ∈ attr
      · simp [hattr]
      · dsimp only
        rw [if_neg hattr, if_neg hattr, Option.map_map]
        congr 1
        funext v
        simp [cutValue, PyStr.take]

theorem lookup_map_snd {α β γ : Type} [BEq α] (f : β → γ) (d : List (α × β)) (k : α) :
    (d.map fun a => (a.1, f a.2)).lookup k = (d.lookup k).map f := by
  induction d with
  | nil => rfl
  | cons a d ih =>
      rw [List.map_cons, List.lookup_cons, List.lookup_cons]
      split
      · rfl
      · exact ih

theorem put_map_snd {α β γ : Type} [DecidableEq α] (f : β → γ) (d : List (α × β)) (k : α) (v : β) :
    Assoc.put k (f v) (d.map fun a => (a.1, f a.2))
      = (Assoc.put k v d).map fun a => (a.1, f a.2) := by
  induction d with
  | nil => rfl
  | cons a d ih =>
      rw [List.map_cons, Assoc.put, Assoc.put]
      split
      · rfl
      · rw [List.map_cons, ih]

/-- One more value, unless there are enough. -/
theorem cutValues_snoc (vals : List String) (value : String) :
    cutValues (vals ++ [value])
      = if (cutValues vals).length < MAX_VALUES then cutValues vals ++ [cutValue value]
        else cutValues vals := by
  unfold cutValues
  rw [List.map_append, List.length_take, List.length_map]
  split
  · rename_i h
    have hlen : vals.length < MAX_VALUES := by omega
    rw [List.take_of_length_le (by simp; omega), List.take_of_length_le (by simp; omega)]
    rfl
  · rename_i h
    exact List.take_append_of_le_length (by simp; omega)

theorem cut_addWhole (e : Entry) (key value : String) :
    (e.addWhole key value).cut = e.cut.add key (cutValue value) := by
  unfold Entry.addWhole Entry.cut Entry.add
  dsimp only
  rw [lookup_map_snd, ← put_map_snd, cutValues_snoc]
  rcases e.attrs.lookup key with _ | vals
  · rfl
  · rfl

theorem cut_close (r : Reading) : r.close.cut = r.cut.close := by
  rcases r with ⟨entries, _ | e⟩
  · simp [Reading.close, Reading.cut]
  · simp [Reading.close, Reading.cut]

theorem cut_wholeField (r : Reading) (key value : String) :
    (r.wholeField key value).cut = r.cut.field key (cutValue value) := by
  unfold Reading.wholeField Reading.field
  split
  · rw [← cut_close]
    rfl
  · rcases r with ⟨entries, _ | e⟩
    · rfl
    · simp [Reading.cut, cut_addWhole]

/-! ## Bounded reading -/

theorem readWhole_starts (lines : List Line) (r : Reading) :
    r.entries <+: (readWhole lines r).entries := by
  induction lines generalizing r with
  | nil => exact List.prefix_rfl
  | cons line lines ih =>
      have hclose : r.entries <+: r.close.entries := List.prefix_append _ _
      rw [readWhole]
      split
      · exact hclose.trans (ih _)
      · split
        · exact ih r
        · rename_i key value _
          refine List.IsPrefix.trans ?_ (ih _)
          unfold Reading.wholeField
          split
          · exact hclose
          · rcases r with ⟨entries, _ | e⟩
            · exact List.prefix_rfl
            · exact List.prefix_rfl

theorem result_eq (r : Reading) : r.result = r.close.entries.take MAX_ENTRIES := by
  unfold Reading.result
  dsimp only
  split
  · rfl
  · rename_i h
    exact (List.take_append_of_le_length (by omega)).symm

/-- From matching states, bounded reading gives the first entries of the
reading without bounds, cut; it may stop once it has enough of them. -/
theorem read_eq (lines : List Line) (r : Reading) :
    (read lines r.cut).result
      = ((readWhole lines r).close.entries.map Entry.cut).take MAX_ENTRIES := by
  induction lines generalizing r with
  | nil =>
      rw [read, readWhole, result_eq, ← cut_close]
      rfl
  | cons line lines ih =>
      rw [read, readWhole]
      split
      · rw [← cut_close]
        split
        · rename_i h
          -- the entries that are complete are the first ones of all
          rw [result_eq, ← cut_close]
          have hsame : r.close.close = r.close := by simp [Reading.close]
          have hlen : MAX_ENTRIES ≤ r.close.entries.length := by
            simpa [Reading.cut] using h
          obtain ⟨more, hmore⟩ := (readWhole_starts lines r.close).trans
            (List.prefix_append _ (readWhole lines r.close).cur.toList)
          replace hmore : r.close.entries ++ more = (readWhole lines r.close).close.entries := hmore
          rw [hsame, ← hmore, List.map_append, List.take_append_of_le_length (by simpa using hlen)]
          rfl
        · exact ih r.close
      · rw [field?_eq]
        rcases wholeField? line with _ | ⟨key, value⟩
        · exact ih r
        · dsimp only [Option.map_some]
          rw [← cut_wholeField]
          exact ih _

theorem parse_eq (text : String) :
    parse text = ((parseWhole text).map Entry.cut).take MAX_ENTRIES :=
  read_eq (Lines.unfoldChars (Lines.splitChars text.toList)) {}

/-! ## What fits -/

theorem map_eq_self_iff {α : Type} {f : α → α} {xs : List α} :
    xs.map f = xs ↔ ∀ x ∈ xs, f x = x := by
  induction xs with
  | nil => simp
  | cons x xs ih => rw [List.map_cons, List.cons.injEq, ih, List.forall_mem_cons]

/-- An entry the reader takes as it is. -/
structure Entry.Fits (e : Entry) : Prop where
  dn : e.dn.toList.length ≤ MAX_VALUE_LEN
  counts : ∀ a ∈ e.attrs, a.2.length ≤ MAX_VALUES
  lengths : ∀ a ∈ e.attrs, ∀ v ∈ a.2, v.toList.length ≤ MAX_VALUE_LEN

theorem cutValue_eq_iff (value : String) :
    cutValue value = value ↔ value.toList.length ≤ MAX_VALUE_LEN := by
  rw [← String.toList_inj, cutValue, PyStr.take, String.toList_ofList]
  refine ⟨fun h => ?_, List.take_of_length_le⟩
  have := congrArg List.length h
  rw [List.length_take] at this
  omega

theorem cutValues_eq_iff (values : List String) :
    cutValues values = values ↔
      values.length ≤ MAX_VALUES ∧ ∀ v ∈ values, v.toList.length ≤ MAX_VALUE_LEN := by
  unfold cutValues
  constructor
  · intro h
    have hlen : values.length ≤ MAX_VALUES := by
      have := congrArg List.length h
      rw [List.length_take, List.length_map] at this
      omega
    rw [List.take_of_length_le (by simpa using hlen)] at h
    refine ⟨hlen, fun v hv => (cutValue_eq_iff v).mp ?_⟩
    exact map_eq_self_iff.mp h v hv
  · rintro ⟨hlen, hall⟩
    rw [List.take_of_length_le (by simpa using hlen)]
    exact map_eq_self_iff.mpr fun v hv => (cutValue_eq_iff v).mpr (hall v hv)

theorem cut_eq_iff (e : Entry) : e.cut = e ↔ e.Fits := by
  have hattrs : (e.attrs.map fun a => (a.1, cutValues a.2)) = e.attrs
      ↔ ∀ a ∈ e.attrs, cutValues a.2 = a.2 := by
    rw [map_eq_self_iff]
    exact forall₂_congr fun a _ => by simp [Prod.ext_iff]
  constructor
  · intro h
    have hdn : cutValue e.dn = e.dn := congrArg Entry.dn h
    have hall := hattrs.mp (congrArg Entry.attrs h)
    exact ⟨(cutValue_eq_iff _).mp hdn, fun a ha => ((cutValues_eq_iff _).mp (hall a ha)).1,
      fun a ha => ((cutValues_eq_iff _).mp (hall a ha)).2⟩
  · intro h
    have hdn := (cutValue_eq_iff _).mpr h.dn
    have hall := hattrs.mpr fun a ha =>
      (cutValues_eq_iff _).mpr ⟨h.counts a ha, h.lengths a ha⟩
    unfold Entry.cut
    rw [hdn, hall]

/-- Cutting a list of entries changes nothing exactly if it fits. -/
theorem cut_all_eq_iff (es : List Entry) :
    (es.map Entry.cut).take MAX_ENTRIES = es ↔
      es.length ≤ MAX_ENTRIES ∧ ∀ e ∈ es, e.Fits := by
  constructor
  · intro h
    have hlen : es.length ≤ MAX_ENTRIES := by
      have := congrArg List.length h
      rw [List.length_take, List.length_map] at this
      omega
    rw [List.take_of_length_le (by simpa using hlen)] at h
    exact ⟨hlen, fun e he => (cut_eq_iff e).mp (map_eq_self_iff.mp h e he)⟩
  · rintro ⟨hlen, hall⟩
    rw [List.take_of_length_le (by simpa using hlen)]
    exact map_eq_self_iff.mpr fun e he => (cut_eq_iff e).mpr (hall e he)

end IpaDiagnose.Ldif
