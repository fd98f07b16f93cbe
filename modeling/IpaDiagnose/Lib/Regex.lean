import IpaDiagnose.Lib.Unicode

/-!
# Backtracking regular expressions

A shallow model of the matching discipline of Perl-style engines: a
pattern maps a cursor to the *list of cursors it can end at, in the
order the engine tries them*. `match` takes the first one, `fullmatch`
the first one at the end of the text, `sub`/`findall` scan from left to
right and never look back. The fragment has character classes, captures,
greedy and lazy repetition, anchors and word boundaries; the body of a
repetition always consumes a character.
-/

namespace Regex

/-- A position in the text: the character just read, what is left, and
the groups captured so far (innermost last). -/
structure Cursor where
  prev : Option Char
  rest : List Char
  caps : List (Nat × List Char)
deriving DecidableEq

def Cursor.start (s : List Char) : Cursor := ⟨none, s, []⟩

inductive Re where
  | eps
  | cls (p : Char → Bool)
  | seq (a b : Re)
  | alt (a b : Re)
  | rep (greedy : Bool) (lo : Nat) (hi : Option Nat) (r : Re)
  | group (i : Nat) (r : Re)
  | bos
  | eos
  | wordB

/-! ## Building patterns -/

namespace Re

def char (c : Char) : Re := .cls (· == c)

def oneOf (s : String) : Re := .cls (s.toList.contains ·)

def seqAll : List Re → Re
  | [] => .eps
  | [r] => r
  | r :: rs => .seq r (seqAll rs)

def altAll : List Re → Re
  | [] => .cls fun _ => false
  | [r] => r
  | r :: rs => .alt r (altAll rs)

def lit (s : String) : Re := seqAll (s.toList.map char)

def star (r : Re) : Re := .rep true 0 none r

def plus (r : Re) : Re := .rep true 1 none r

def opt (r : Re) : Re := .rep true 0 (some 1) r

def rept (lo hi : Nat) (r : Re) : Re := .rep true lo (some hi) r

end Re

/-! ## Character classes -/

def lower (c : Char) : Bool := 97 ≤ c.toNat && c.toNat ≤ 122

def upper (c : Char) : Bool := 65 ≤ c.toNat && c.toNat ≤ 90

def digit (c : Char) : Bool := 48 ≤ c.toNat && c.toNat ≤ 57

/-- `\w`: any alphanumeric character and the underscore. -/
def word (c : Char) : Bool := Unicode.isAlnum c || c == '_'

/-- Equality up to case, with the four characters outside ASCII that
case-insensitive matching identifies with an ASCII letter. -/
def sameLetter (c x : Char) : Bool :=
  c.toLower == x.toLower
    || (c.toLower == 'i' && (x.toNat == 0x130 || x.toNat == 0x131))
    || (c.toLower == 's' && x.toNat == 0x17f)
    || (c.toLower == 'k' && x.toNat == 0x212a)

def Re.charI (c : Char) : Re := .cls (sameLetter c)

def Re.litI (s : String) : Re := Re.seqAll (s.toList.map Re.charI)

/-! ## Matching -/

/-- Repetition: `fuel` bounds the iterations by the length of the text,
which is enough because every iteration consumes a character. -/
def iter (f : Cursor → List Cursor) (greedy : Bool) :
    Nat → Nat → Option Nat → Cursor → List Cursor
  | 0, lo, _, c => if lo = 0 then [c] else []
  | fuel + 1, lo, hi, c =>
      let more := if hi = some 0 then [] else
        (f c).flatMap fun c' =>
          if c'.rest.length < c.rest.length then
            iter f greedy fuel (lo - 1) (hi.map (· - 1)) c'
          else []
      let stop := if lo = 0 then [c] else []
      if greedy then more ++ stop else stop ++ more

def wordAt : Option Char → Bool
  | some c => word c
  | none => false

/-- The cursors a pattern can end at, first choice first. -/
def Re.run : Re → Cursor → List Cursor
  | .eps, c => [c]
  | .cls p, c =>
      match c.rest with
      | x :: xs => if p x then [⟨some x, xs, c.caps⟩] else []
      | [] => []
  | .seq a b, c => (a.run c).flatMap b.run
  | .alt a b, c => a.run c ++ b.run c
  | .rep greedy lo hi r, c => iter r.run greedy c.rest.length lo hi c
  | .group i r, c =>
      (r.run c).map fun c' =>
        { c' with caps := c'.caps ++ [(i, c.rest.take (c.rest.length - c'.rest.length))] }
  | .bos, c => if c.prev.isNone then [c] else []
  | .eos, c => if c.rest = [] ∨ c.rest = ['\n'] then [c] else []
  | .wordB, c => if wordAt c.prev != wordAt c.rest.head? then [c] else []

/-- What a successful match read, and its groups. -/
structure Match where
  text : List Char
  caps : List (Nat × List Char)

/-- The last capture of a group, as a string. -/
def Match.group? (m : Match) (i : Nat) : Option String :=
  ((m.caps.reverse.find? fun g => g.1 == i).map fun g => String.ofList g.2)

def Match.ofCursors (c c' : Cursor) : Match :=
  ⟨c.rest.take (c.rest.length - c'.rest.length), c'.caps⟩

/-- A match of a prefix of the text. -/
def Re.match? (r : Re) (s : String) : Option Match :=
  ((r.run (Cursor.start s.toList)).head?).map (Match.ofCursors (Cursor.start s.toList))

/-- A match of the whole text. -/
def Re.fullmatch? (r : Re) (s : String) : Option Match :=
  ((r.run (Cursor.start s.toList)).find? fun c => c.rest.isEmpty).map
    (Match.ofCursors (Cursor.start s.toList))

def Re.fullmatch (r : Re) (s : String) : Bool := (r.fullmatch? s).isSome

/-- A match that starts somewhere in the text. -/
def Re.searchFrom (r : Re) : Option Char → List Char → Bool
  | prev, [] => !(r.run ⟨prev, [], []⟩).isEmpty
  | prev, x :: xs => !(r.run ⟨prev, x :: xs, []⟩).isEmpty || r.searchFrom (some x) xs

def Re.search (r : Re) (s : String) : Bool := r.searchFrom none s.toList

/-- The leftmost non-overlapping matches, interleaved with the
characters between them. -/
def Re.scan (r : Re) : Nat → Cursor → List (Char ⊕ Match)
  | 0, _ => []
  | fuel + 1, c =>
      match c.rest with
      | [] => []
      | x :: xs =>
          match (r.run { c with caps := [] }).head? with
          | some c' =>
              if c'.rest.length < c.rest.length then
                .inr (Match.ofCursors c c') :: r.scan fuel c'
              else .inl x :: r.scan fuel ⟨some x, xs, []⟩
          | none => .inl x :: r.scan fuel ⟨some x, xs, []⟩

def Re.tokens (r : Re) (s : String) : List (Char ⊕ Match) :=
  r.scan s.toList.length (Cursor.start s.toList)

def Re.findall (r : Re) (s : String) : List Match :=
  (r.tokens s).filterMap fun t => t.elim (fun _ => none) some

def Re.sub (r : Re) (f : Match → String) (s : String) : String :=
  String.ofList ((r.tokens s).flatMap fun t => t.elim (fun c => [c]) fun m => (f m).toList)

/-! ## What a match consumes -/

/-- The characters a pattern may read. -/
def Re.Reads : Re → Char → Prop
  | .cls p, x => p x = true
  | .seq a b, x => a.Reads x ∨ b.Reads x
  | .alt a b, x => a.Reads x ∨ b.Reads x
  | .rep _ _ _ r, x => r.Reads x
  | .group _ r, x => r.Reads x
  | _, _ => False

/-- `c'` is `c` after reading characters of `A` only. -/
def Advance (A : Char → Prop) (c c' : Cursor) : Prop :=
  ∃ w, c.rest = w ++ c'.rest ∧ ∀ x ∈ w, A x

theorem Advance.refl {A : Char → Prop} {c c' : Cursor} (h : c.rest = c'.rest) :
    Advance A c c' := ⟨[], h, by simp⟩

theorem Advance.trans {A : Char → Prop} {c₁ c₂ c₃ : Cursor}
    (h₁ : Advance A c₁ c₂) (h₂ : Advance A c₂ c₃) : Advance A c₁ c₃ := by
  obtain ⟨w₁, e₁, a₁⟩ := h₁
  obtain ⟨w₂, e₂, a₂⟩ := h₂
  refine ⟨w₁ ++ w₂, by rw [e₁, e₂, List.append_assoc], fun x hx => ?_⟩
  rcases List.mem_append.mp hx with h | h
  · exact a₁ x h
  · exact a₂ x h

theorem Advance.mono {A B : Char → Prop} {c c' : Cursor} (hAB : ∀ x, A x → B x)
    (h : Advance A c c') : Advance B c c' := by
  obtain ⟨w, e, a⟩ := h
  exact ⟨w, e, fun x hx => hAB x (a x hx)⟩

theorem iter_advance {A : Char → Prop} {f : Cursor → List Cursor}
    (hf : ∀ c, ∀ c' ∈ f c, Advance A c c') (greedy : Bool) :
    ∀ fuel lo hi c, ∀ c' ∈ iter f greedy fuel lo hi c, Advance A c c' := by
  intro fuel
  induction fuel with
  | zero =>
      intro lo hi c c' h
      simp only [iter] at h
      split at h
      · obtain rfl := List.mem_singleton.mp h
        exact .refl rfl
      · cases h
  | succ fuel ih =>
      intro lo hi c c' h
      have hstop : ∀ x ∈ (if lo = 0 then [c] else []), Advance A c x := by
        intro x hx
        split at hx
        · obtain rfl := List.mem_singleton.mp hx
          exact .refl rfl
        · cases hx
      have hmore : ∀ x ∈ (if hi = some 0 then [] else (f c).flatMap fun c' =>
          if c'.rest.length < c.rest.length then
            iter f greedy fuel (lo - 1) (hi.map (· - 1)) c' else []), Advance A c x := by
        intro x hx
        split at hx
        · cases hx
        · obtain ⟨c₁, hc₁, hx⟩ := List.mem_flatMap.mp hx
          split at hx
          · exact (hf c c₁ hc₁).trans (ih _ _ _ _ hx)
          · cases hx
      simp only [iter] at h
      split at h
      · exact (List.mem_append.mp h).elim (hmore c') (hstop c')
      · exact (List.mem_append.mp h).elim (hstop c') (hmore c')

/-- A match reads a prefix of the text, and only characters of the
pattern's classes. -/
theorem Re.run_advance : ∀ (r : Re) (c : Cursor), ∀ c' ∈ r.run c, Advance r.Reads c c'
  | .eps, c, c', h => by
      obtain rfl := List.mem_singleton.mp h
      exact .refl rfl
  | .cls p, c, c', h => by
      simp only [Re.run] at h
      split at h
      · rename_i x xs hrest
        split at h
        · rename_i hp
          obtain rfl := List.mem_singleton.mp h
          exact ⟨[x], hrest, by simpa [Re.Reads] using hp⟩
        · cases h
      · cases h
  | .seq a b, c, c', h => by
      obtain ⟨c₁, h₁, h₂⟩ := List.mem_flatMap.mp h
      exact ((a.run_advance c c₁ h₁).mono fun _ => Or.inl).trans
        ((b.run_advance c₁ c' h₂).mono fun _ => Or.inr)
  | .alt a b, c, c', h => by
      rcases List.mem_append.mp h with h | h
      · exact (a.run_advance c c' h).mono fun _ => Or.inl
      · exact (b.run_advance c c' h).mono fun _ => Or.inr
  | .rep greedy lo hi r, c, c', h =>
      iter_advance (A := r.Reads) (fun c c' => r.run_advance c c') greedy _ lo hi c c' h
  | .group i r, c, c', h => by
      obtain ⟨c₁, h₁, rfl⟩ := List.mem_map.mp h
      exact r.run_advance c c₁ h₁
  | .bos, c, c', h => by
      simp only [Re.run] at h
      split at h
      · obtain rfl := List.mem_singleton.mp h
        exact .refl rfl
      · cases h
  | .eos, c, c', h => by
      simp only [Re.run] at h
      split at h
      · obtain rfl := List.mem_singleton.mp h
        exact .refl rfl
      · cases h
  | .wordB, c, c', h => by
      simp only [Re.run] at h
      split at h
      · obtain rfl := List.mem_singleton.mp h
        exact .refl rfl
      · cases h

/-- Every character of a text that matches as a whole is one the pattern reads. -/
theorem Re.fullmatch_reads {r : Re} {s : String} (h : r.fullmatch s = true) :
    ∀ x ∈ s.toList, r.Reads x := by
  rw [Re.fullmatch, Re.fullmatch?, Option.isSome_map, List.find?_isSome] at h
  obtain ⟨c, hc, hend⟩ := h
  obtain ⟨w, hw, hA⟩ := r.run_advance _ _ hc
  rw [List.isEmpty_iff.mp hend, List.append_nil] at hw
  exact fun x hx => hA x (by rwa [← hw])

/-! ## What a match begins with -/

/-- Every match reads a character. -/
def Re.consumes : Re → Bool
  | .cls _ => true
  | .seq a b => a.consumes || b.consumes
  | .alt a b => a.consumes && b.consumes
  | .rep _ lo _ r => lo != 0 && r.consumes
  | .group _ r => r.consumes
  | _ => false

/-- The characters a match may begin with. -/
def Re.Heads : Re → Char → Prop
  | .cls p, x => p x = true
  | .seq a b, x => a.Heads x ∨ (a.consumes = false ∧ b.Heads x)
  | .alt a b, x => a.Heads x ∨ b.Heads x
  | .rep _ _ _ r, x => r.Heads x
  | .group _ r, x => r.Heads x
  | _, _ => False

/-- `c'` is `c` after a text that begins with a character of `A`; the
text is not empty if `must` says so. -/
def Begins (must : Bool) (A : Char → Prop) (c c' : Cursor) : Prop :=
  ∃ w, c.rest = w ++ c'.rest ∧ (w = [] → must = false) ∧ ∀ x, w.head? = some x → A x

theorem Begins.refl {A : Char → Prop} {c c' : Cursor} (h : c.rest = c'.rest) :
    Begins false A c c' := ⟨[], h, fun _ => rfl, by simp⟩

theorem Begins.mono {must must' : Bool} {A B : Char → Prop} {c c' : Cursor}
    (hmust : must' = true → must = true) (hAB : ∀ x, A x → B x) (h : Begins must A c c') :
    Begins must' B c c' := by
  obtain ⟨w, hw, hne, hhead⟩ := h
  refine ⟨w, hw, fun hnil => ?_, fun x hx => hAB x (hhead x hx)⟩
  cases hm : must'
  · rfl
  · exact absurd (hmust hm) (by simp [hne hnil])

theorem Begins.trans {m₁ m₂ : Bool} {A B : Char → Prop} {c₁ c₂ c₃ : Cursor}
    (h₁ : Begins m₁ A c₁ c₂) (h₂ : Begins m₂ B c₂ c₃) :
    Begins (m₁ || m₂) (fun x => A x ∨ (m₁ = false ∧ B x)) c₁ c₃ := by
  obtain ⟨w₁, e₁, n₁, a₁⟩ := h₁
  obtain ⟨w₂, e₂, n₂, a₂⟩ := h₂
  refine ⟨w₁ ++ w₂, by rw [e₁, e₂, List.append_assoc], fun hnil => ?_, fun x hx => ?_⟩
  · obtain ⟨h₁, h₂⟩ := List.append_eq_nil_iff.mp hnil
    rw [n₁ h₁, n₂ h₂]
    rfl
  · rcases w₁ with _ | ⟨y, w₁⟩
    · exact .inr ⟨n₁ rfl, a₂ x hx⟩
    · exact .inl (a₁ x hx)

theorem iter_begins {must : Bool} {A : Char → Prop} {f : Cursor → List Cursor}
    (hf : ∀ c, ∀ c' ∈ f c, Begins must A c c') (greedy : Bool) :
    ∀ fuel lo hi c, ∀ c' ∈ iter f greedy fuel lo hi c, Begins (lo != 0 && must) A c c' := by
  intro fuel
  induction fuel with
  | zero =>
      intro lo hi c c' h
      simp only [iter] at h
      split at h
      · rename_i hlo
        obtain rfl := List.mem_singleton.mp h
        simpa [hlo] using Begins.refl rfl
      · cases h
  | succ fuel ih =>
      intro lo hi c c' h
      have hstop : ∀ x ∈ (if lo = 0 then [c] else []), Begins (lo != 0 && must) A c x := by
        intro x hx
        split at hx
        · rename_i hlo
          obtain rfl := List.mem_singleton.mp hx
          simpa [hlo] using Begins.refl rfl
        · cases hx
      have hmore : ∀ x ∈ (if hi = some 0 then [] else (f c).flatMap fun c' =>
          if c'.rest.length < c.rest.length then
            iter f greedy fuel (lo - 1) (hi.map (· - 1)) c' else []),
          Begins (lo != 0 && must) A c x := by
        intro x hx
        split at hx
        · cases hx
        · obtain ⟨c₁, hc₁, hx⟩ := List.mem_flatMap.mp hx
          split at hx
          · refine ((hf c c₁ hc₁).trans (ih _ _ _ _ hx)).mono (fun h => ?_) fun y hy => ?_
            · rw [(Bool.and_eq_true_iff.mp h).2, Bool.true_or]
            · exact hy.elim id And.right
          · cases hx
      simp only [iter] at h
      split at h
      · exact (List.mem_append.mp h).elim (hmore c') (hstop c')
      · exact (List.mem_append.mp h).elim (hstop c') (hmore c')

theorem Re.run_begins : ∀ (r : Re) (c : Cursor), ∀ c' ∈ r.run c,
    Begins r.consumes r.Heads c c'
  | .eps, c, c', h => by
      obtain rfl := List.mem_singleton.mp h
      exact .refl rfl
  | .cls p, c, c', h => by
      simp only [Re.run] at h
      split at h
      · rename_i x xs hrest
        split at h
        · rename_i hp
          obtain rfl := List.mem_singleton.mp h
          exact ⟨[x], hrest, by simp, by simpa [Re.Heads] using hp⟩
        · cases h
      · cases h
  | .seq a b, c, c', h => by
      obtain ⟨c₁, h₁, h₂⟩ := List.mem_flatMap.mp h
      exact (a.run_begins c c₁ h₁).trans (b.run_begins c₁ c' h₂)
  | .alt a b, c, c', h => by
      rcases List.mem_append.mp h with h | h
      · exact (a.run_begins c c' h).mono (fun hm => (Bool.and_eq_true_iff.mp hm).1) fun _ => Or.inl
      · exact (b.run_begins c c' h).mono (fun hm => (Bool.and_eq_true_iff.mp hm).2) fun _ => Or.inr
  | .rep greedy lo hi r, c, c', h =>
      iter_begins (fun c c' => r.run_begins c c') greedy _ lo hi c c' h
  | .group i r, c, c', h => by
      obtain ⟨c₁, h₁, rfl⟩ := List.mem_map.mp h
      exact r.run_begins c c₁ h₁
  | .bos, c, c', h => by
      simp only [Re.run] at h
      split at h
      · obtain rfl := List.mem_singleton.mp h
        exact .refl rfl
      · cases h
  | .eos, c, c', h => by
      simp only [Re.run] at h
      split at h
      · obtain rfl := List.mem_singleton.mp h
        exact .refl rfl
      · cases h
  | .wordB, c, c', h => by
      simp only [Re.run] at h
      split at h
      · obtain rfl := List.mem_singleton.mp h
        exact .refl rfl
      · cases h

/-- A text that matches a consuming pattern as a whole begins with a
character the pattern may begin with. -/
theorem Re.fullmatch_heads {r : Re} {s : String} (hr : r.consumes = true)
    (h : r.fullmatch s = true) : ∃ x, s.toList.head? = some x ∧ r.Heads x := by
  rw [Re.fullmatch, Re.fullmatch?, Option.isSome_map, List.find?_isSome] at h
  obtain ⟨c, hc, hend⟩ := h
  obtain ⟨w, hw, hne, hhead⟩ := r.run_begins _ _ hc
  rw [List.isEmpty_iff.mp hend, List.append_nil] at hw
  replace hw : s.toList = w := hw
  rw [hw]
  rcases w with _ | ⟨x, w⟩
  · exact absurd (hne rfl) (by simp [hr])
  · exact ⟨x, rfl, hhead x rfl⟩

end Regex
