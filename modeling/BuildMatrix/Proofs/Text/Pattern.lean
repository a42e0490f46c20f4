import BuildMatrix.Proofs.Text.Cut

/-!
# Patterns

A pattern may fit the front of a text in several ways. They are listed in the order in which a
greedy search tries them: what is repeated or optional is taken as far as possible first. The search
goes from left to right and takes the first way at the first place that has one.
-/

namespace BuildMatrix.Text

/-- What is read at the first place of a text at which something can be read. -/
def atFirst? {α : Type} (read : List Char → Option α) : List Char → Option α
  | [] => read []
  | c :: s =>
    match read (c :: s) with
    | some a => some a
    | none => atFirst? read s

inductive Pattern where
  | word (text : List Char)
  /-- One or more characters of a class. -/
  | run (isIn : Char → Bool)
  | seq (first second : Pattern)
  | maybe (pattern : Pattern)

/-- The ways to take one or more characters of a class, the longest first, and what they leave. -/
def runs (isIn : Char → Bool) : List Char → List (List Char × List Char)
  | [] => []
  | c :: s =>
    if isIn c then (runs isIn s).map (fun way => (c :: way.1, way.2)) ++ [([c], s)] else []

namespace Pattern

/-- What the pattern takes off the front of a text, and what it leaves, the preferred way first. -/
def ways : Pattern → List Char → List (List Char × List Char)
  | word text, s => ((after? text s).map fun rest => (text, rest)).toList
  | run isIn, s => runs isIn s
  | seq first second, s =>
    (first.ways s).flatMap fun front =>
      (second.ways front.2).map fun way => (front.1 ++ way.1, way.2)
  | maybe pattern, s => pattern.ways s ++ [([], s)]

def search? (pattern : Pattern) : List Char → Option (List Char) :=
  atFirst? fun s => (pattern.ways s).head?.map (·.1)

end Pattern

/-! ### First places -/

section
variable {α β : Type} {read : List Char → Option α} {s : List Char} {a : α}

theorem atFirst?_map (f : α → β) (s : List Char) :
    (atFirst? read s).map f = atFirst? (fun t => (read t).map f) s := by
  induction s with
  | nil => rfl
  | cons c s ih =>
    rw [atFirst?, atFirst?]
    cases read (c :: s) with
    | some a => rfl
    | none => exact ih

/-- A place at which something can be read, with no such place before it. -/
structure IsFirst (read : List Char → Option α) (before after : List Char) : Prop where
  reads : (read after).isSome
  first : ∀ earlier later, before ++ after = earlier ++ later → (read later).isSome →
    before.length ≤ earlier.length

theorem atFirst?_eq_some_iff : atFirst? read s = some a ↔
    ∃ before after, s = before ++ after ∧ read after = some a ∧ IsFirst read before after := by
  constructor
  · intro h
    induction s with
    | nil =>
      rw [atFirst?] at h
      exact ⟨[], [], rfl, h, by rw [h]; rfl, fun _ _ _ _ => Nat.zero_le _⟩
    | cons c s ih =>
      rw [atFirst?] at h
      cases hread : read (c :: s) with
      | some b =>
        rw [hread] at h
        refine ⟨[], c :: s, rfl, hread.trans h, by rw [hread]; rfl, fun _ _ _ _ => Nat.zero_le _⟩
      | none =>
        rw [hread] at h
        obtain ⟨before, after, rfl, ha, hfirst⟩ := ih h
        refine ⟨c :: before, after, rfl, ha, hfirst.reads, ?_⟩
        intro earlier later hsplit hlater
        cases earlier with
        | nil =>
          rw [← List.nil_append later, ← hsplit, List.cons_append, hread] at hlater
          cases hlater
        | cons d earlier =>
          apply Nat.succ_le_succ
          exact hfirst.first earlier later (List.cons.inj hsplit).2 hlater
  · intro h
    obtain ⟨before, after, rfl, ha, hfirst⟩ := h
    induction before with
    | nil =>
      cases after with
      | nil => exact ha
      | cons c s => rw [List.nil_append, atFirst?, ha]
    | cons c before ih =>
      have hnone : read (c :: (before ++ after)) = none := by
        rw [← Option.not_isSome_iff_eq_none]
        intro hsome
        exact absurd (hfirst.first [] (c :: (before ++ after)) rfl hsome) (Nat.not_succ_le_zero _)
      rw [List.cons_append, atFirst?, hnone]
      apply ih
      refine ⟨hfirst.reads, fun earlier later hsplit hlater => ?_⟩
      apply Nat.le_of_succ_le_succ
      exact hfirst.first (c :: earlier) later (by rw [List.cons_append, hsplit]; rfl) hlater

theorem atFirst?_isSome_iff :
    (atFirst? read s).isSome ↔ ∃ before after, s = before ++ after ∧ (read after).isSome := by
  constructor
  · intro h
    obtain ⟨a, ha⟩ := Option.isSome_iff_exists.mp h
    obtain ⟨before, after, hs, -, hfirst⟩ := atFirst?_eq_some_iff.mp ha
    exact ⟨before, after, hs, hfirst.reads⟩
  · intro h
    obtain ⟨before, after, rfl, hafter⟩ := h
    induction before with
    | nil =>
      cases after with
      | nil => exact hafter
      | cons c s =>
        obtain ⟨a, ha⟩ := Option.isSome_iff_exists.mp hafter
        rw [List.nil_append, atFirst?, ha]
        rfl
    | cons c before ih =>
      rw [List.cons_append, atFirst?]
      split
      · rfl
      · exact ih

end

/-! ### Runs -/

/-- A front of a text that holds all characters of a class up to the first other one. -/
structure IsRun (isIn : Char → Bool) (front rest : List Char) : Prop where
  ne_nil : front ≠ []
  mem : ∀ c ∈ front, isIn c
  ends : ∀ c ∈ rest.head?, isIn c = false

section
variable {isIn : Char → Bool} {front rest s : List Char} {c : Char}

theorem takeWhile_eq_nil (h : ∀ c ∈ s.head?, isIn c = false) : s.takeWhile isIn = [] := by
  cases s with
  | nil => rfl
  | cons c s => exact List.takeWhile_cons_of_neg (by simp [h c rfl])

theorem dropWhile_eq_self (h : ∀ c ∈ s.head?, isIn c = false) : s.dropWhile isIn = s := by
  cases s with
  | nil => rfl
  | cons c s => exact List.dropWhile_cons_of_neg (by simp [h c rfl])

theorem IsRun.takeWhile_eq (h : IsRun isIn front rest) :
    (front ++ rest).takeWhile isIn = front := by
  rw [List.takeWhile_append_of_pos h.mem, takeWhile_eq_nil h.ends, List.append_nil]

theorem IsRun.dropWhile_eq (h : IsRun isIn front rest) :
    (front ++ rest).dropWhile isIn = rest := by
  rw [List.dropWhile_append_of_pos h.mem, dropWhile_eq_self h.ends]

theorem exists_isRun (h : isIn c) (s : List Char) :
    ∃ front rest, c :: s = front ++ rest ∧ IsRun isIn front rest := by
  induction s generalizing c with
  | nil => exact ⟨[c], [], rfl, by simp, by simpa using h, by simp⟩
  | cons d s ih =>
    by_cases hd : isIn d
    · obtain ⟨front, rest, hs, hrun⟩ := ih hd
      refine ⟨c :: front, rest, by rw [hs, List.cons_append], by simp, ?_, hrun.ends⟩
      exact List.forall_mem_cons.mpr ⟨h, hrun.mem⟩
    · exact ⟨[c], d :: s, rfl, by simp, by simpa using h, by simpa using hd⟩

theorem runs_eq_nil (h : ∀ c ∈ s.head?, isIn c = false) : runs isIn s = [] := by
  cases s with
  | nil => rfl
  | cons c s => rw [runs, h c rfl, if_neg Bool.false_ne_true]

/-- The whole run comes first. The ways behind it leave a text that begins within the run. -/
theorem runs_of_isRun (h : IsRun isIn front rest) :
    ∃ shorter, runs isIn (front ++ rest) = (front, rest) :: shorter ∧
      ∀ way ∈ shorter, ∃ c ∈ way.2.head?, isIn c := by
  induction front with
  | nil => exact absurd rfl h.ne_nil
  | cons c front ih =>
    have hc : isIn c := h.mem c List.mem_cons_self
    by_cases hnil : front = []
    · refine ⟨[], ?_, by simp⟩
      rw [hnil, List.singleton_append, runs, if_pos hc, runs_eq_nil h.ends]
      rfl
    · have hrun : IsRun isIn front rest :=
        ⟨hnil, fun d hd => h.mem d (List.mem_cons_of_mem c hd), h.ends⟩
      obtain ⟨shorter, hshorter, hways⟩ := ih hrun
      refine ⟨shorter.map (fun way => (c :: way.1, way.2)) ++ [([c], front ++ rest)], ?_, ?_⟩
      · rw [List.cons_append, runs, if_pos hc, hshorter]
        rfl
      · intro way hway
        cases List.mem_append.mp hway with
        | inl hmem =>
          obtain ⟨other, hother, rfl⟩ := List.mem_map.mp hmem
          exact hways other hother
        | inr hmem =>
          rw [List.mem_singleton.mp hmem]
          obtain ⟨d, tail, rfl⟩ := List.exists_cons_of_ne_nil hnil
          exact ⟨d, rfl, h.mem d (by simp)⟩

end

/-! ### Ways -/

namespace Pattern

variable {isIn : Char → Bool} {front rest s : List Char} {c : Char}

@[simp] theorem ways_word_append (text rest : List Char) :
    (word text).ways (text ++ rest) = [(text, rest)] := by
  rw [ways, after?_append_self]
  rfl

theorem ways_word_eq_nil (h : after? front s = none) : (word front).ways s = [] := by
  rw [ways, h]
  rfl

theorem ways_seq_eq_nil {first : Pattern} (h : first.ways s = []) (second : Pattern) :
    (seq first second).ways s = [] := by
  rw [ways, h, List.flatMap_nil]

theorem ways_word_seq (text rest : List Char) (second : Pattern) :
    (seq (word text) second).ways (text ++ rest) =
      (second.ways rest).map fun way => (text ++ way.1, way.2) := by
  rw [ways, ways_word_append, List.flatMap_singleton]

/-- Nothing is lost by taking the whole run if what follows cannot begin within it. -/
theorem ways_run_seq (h : IsRun isIn front rest) {second : Pattern}
    (hsecond : ∀ s, (∃ c ∈ s.head?, isIn c) → second.ways s = []) :
    (seq (run isIn) second).ways (front ++ rest) =
      (second.ways rest).map fun way => (front ++ way.1, way.2) := by
  obtain ⟨shorter, hruns, hshorter⟩ := runs_of_isRun h
  have hnone : (shorter.flatMap fun way =>
      (second.ways way.2).map fun next => (way.1 ++ next.1, next.2)) = [] := by
    rw [List.flatMap_eq_nil_iff]
    intro way hway
    rw [hsecond way.2 (hshorter way hway), List.map_nil]
  rw [ways, ways, hruns, List.flatMap_cons, hnone, List.append_nil]

/-- The whole run is preferred if what follows fits there in some way. -/
theorem head?_ways_run_seq (h : IsRun isIn front rest) {second : Pattern}
    {way : List Char × List Char} (hway : (second.ways rest).head? = some way) :
    ((seq (run isIn) second).ways (front ++ rest)).head? = some (front ++ way.1, way.2) := by
  obtain ⟨shorter, hruns, -⟩ := runs_of_isRun h
  rw [ways, ways, hruns, List.flatMap_cons, List.head?_append, List.head?_map, hway]
  rfl

end Pattern

end BuildMatrix.Text
