import BuildMatrix.Proofs.Text.Pattern
import BuildMatrix.Proofs.Version.Components

/-!
# The version that a text reports

A text reports the version behind the first announcement that two numbers with a dot between them
follow. It is read to its end: each number to its last digit, and a third number if there is one.
What is read is what a greedy search for the pattern of an announced version finds.
-/

namespace BuildMatrix.Version

open Text (IsRun Pattern isDigit)

def IsDotted (s : List Char) : Prop := ∃ c rest, s = '.' :: c :: rest ∧ isDigit c

def IsNumber (s : List Char) : Prop := s ≠ [] ∧ ∀ c ∈ s, isDigit c

def BeginsVersion (s : List Char) : Prop :=
  ∃ major rest, s = major ++ rest ∧ IsNumber major ∧ IsDotted rest

/-- An announcement that digits, a dot and a digit follow directly. -/
def Announces (s : List Char) : Prop := ∃ rest, s = announcement ++ rest ∧ BeginsVersion rest

/-- A version that stands before the rest of a text and ends there. -/
inductive IsVersion : (version rest : List Char) → Prop where
  | two {major minor rest : List Char} (hmajor : IsRun isDigit major ('.' :: (minor ++ rest)))
      (hminor : IsRun isDigit minor rest) (hend : ¬IsDotted rest) :
      IsVersion (major ++ '.' :: minor) rest
  | three {major minor patch rest : List Char}
      (hmajor : IsRun isDigit major ('.' :: (minor ++ '.' :: (patch ++ rest))))
      (hminor : IsRun isDigit minor ('.' :: (patch ++ rest))) (hpatch : IsRun isDigit patch rest) :
      IsVersion (major ++ '.' :: (minor ++ '.' :: patch)) rest

section
variable {s version front rest : List Char} {c : Char}

theorem not_isDigit_dot : isDigit '.' = false := by decide +kernel

theorem isNumber_of_isRun (h : IsRun isDigit front rest) : IsNumber front := ⟨h.ne_nil, h.mem⟩

theorem isRun_of_isNumber (h : IsNumber front) (s : List Char) : IsRun isDigit front ('.' :: s) :=
  ⟨h.1, h.2, by simp [not_isDigit_dot]⟩

theorem exists_isVersion (h : BeginsVersion s) :
    ∃ version rest, s = version ++ rest ∧ IsVersion version rest := by
  obtain ⟨major, behind, rfl, hmajor, c, tail, rfl, hc⟩ := h
  obtain ⟨minor, rest, hrest, hminor⟩ := Text.exists_isRun hc tail
  by_cases hdotted : IsDotted rest
  · obtain ⟨d, tail, rfl, hd⟩ := hdotted
    obtain ⟨patch, rest, htail, hpatch⟩ := Text.exists_isRun hd tail
    have hwhole := isRun_of_isNumber (isNumber_of_isRun hminor) (patch ++ rest)
    refine ⟨_, rest, ?_, .three (isRun_of_isNumber hmajor _) hwhole hpatch⟩
    simp [hrest, htail]
  · refine ⟨_, rest, ?_, .two (isRun_of_isNumber hmajor _) hminor hdotted⟩
    simp [hrest]

/-! ### Reading -/

theorem dottedDigits?_run (h : IsRun isDigit front rest) :
    dottedDigits? ('.' :: (front ++ rest)) = some ('.' :: front) := by
  rw [dottedDigits?, h.takeWhile_eq]
  cases front with
  | nil => exact absurd rfl h.ne_nil
  | cons c front => rfl

theorem dottedDigits?_eq_none (h : ¬IsDotted s) : dottedDigits? s = none := by
  unfold dottedDigits?
  split
  · next t =>
    cases t with
    | nil => rfl
    | cons c t =>
      have hc : isDigit c = false := by
        rw [← Bool.not_eq_true]
        exact fun hc => h ⟨c, t, rfl, hc⟩
      rw [Text.takeWhile_eq_nil (by simpa using hc)]
  · rfl

theorem leading?_run (h : IsRun isDigit front rest) :
    leading? (front ++ rest) = (dottedDigits? rest).map fun minor =>
      front ++ minor ++ (dottedDigits? (rest.drop minor.length)).getD [] := by
  rw [leading?, h.takeWhile_eq, h.dropWhile_eq]
  cases front with
  | nil => exact absurd rfl h.ne_nil
  | cons c front => rfl

theorem leading?_of_isVersion (h : IsVersion version rest) :
    leading? (version ++ rest) = some version := by
  cases h with
  | @two major minor _ hmajor hminor hend =>
    have hdrop : ('.' :: (minor ++ rest)).drop ('.' :: minor).length = rest := by simp
    rw [List.append_assoc, List.cons_append, leading?_run hmajor, dottedDigits?_run hminor,
      Option.map_some, hdrop, dottedDigits?_eq_none hend, Option.getD_none, List.append_nil]
  | @three major minor patch _ hmajor hminor hpatch =>
    have hdrop : ('.' :: (minor ++ '.' :: (patch ++ rest))).drop ('.' :: minor).length =
        '.' :: (patch ++ rest) := by simp
    rw [List.append_assoc, List.cons_append, List.append_assoc, List.cons_append,
      leading?_run hmajor, dottedDigits?_run hminor, Option.map_some, hdrop,
      dottedDigits?_run hpatch, Option.getD_some, List.append_assoc, List.cons_append]

theorem leading?_eq_none (h : ¬BeginsVersion s) : leading? s = none := by
  cases s with
  | nil => rfl
  | cons c s =>
    by_cases hc : isDigit c
    · obtain ⟨front, rest, hs, hrun⟩ := Text.exists_isRun hc s
      have hrest : ¬IsDotted rest := fun hdotted =>
        h ⟨front, rest, hs, isNumber_of_isRun hrun, hdotted⟩
      rw [hs, leading?_run hrun, dottedDigits?_eq_none hrest, Option.map_none]
    · rw [leading?, Text.takeWhile_eq_nil (by simpa using hc)]

end

/-! ### Places -/

def announced? (s : List Char) : Option (List Char) := (Text.after? announcement s).bind leading?

theorem reportedIn?_eq (s : List Char) : reportedIn? s = Text.atFirst? announced? s := by
  induction s with
  | nil => rfl
  | cons c s ih =>
    rw [reportedIn?, Text.atFirst?, ← ih, announced?]
    cases (Text.after? announcement (c :: s)).bind leading? with
    | none => rfl
    | some version => rfl

section
variable {s version rest : List Char}

theorem announced?_of_isVersion (h : IsVersion version rest) :
    announced? (announcement ++ (version ++ rest)) = some version := by
  rw [announced?, Text.after?_append_self, Option.bind_some, leading?_of_isVersion h]

theorem announced?_eq_none (h : ¬Announces s) : announced? s = none := by
  rw [announced?, Option.bind_eq_none_iff]
  intro rest hrest
  apply leading?_eq_none
  intro hbegins
  exact h ⟨rest, Text.eq_append_of_after? hrest, hbegins⟩

theorem exists_announced (h : Announces s) :
    ∃ version rest, s = announcement ++ (version ++ rest) ∧ IsVersion version rest := by
  obtain ⟨behind, rfl, hbegins⟩ := h
  obtain ⟨version, rest, rfl, hversion⟩ := exists_isVersion hbegins
  exact ⟨version, rest, rfl, hversion⟩

theorem announced?_isSome_iff : (announced? s).isSome ↔ Announces s := by
  constructor
  · intro h
    by_contra hnot
    rw [announced?_eq_none hnot] at h
    cases h
  · intro h
    obtain ⟨version, rest, rfl, hversion⟩ := exists_announced h
    rw [announced?_of_isVersion hversion]
    rfl

theorem announced?_eq_some_iff : announced? s = some version ↔
    ∃ rest, s = announcement ++ (version ++ rest) ∧ IsVersion version rest := by
  constructor
  · intro h
    have hannounces : Announces s := announced?_isSome_iff.mp (by rw [h]; rfl)
    obtain ⟨found, rest, rfl, hfound⟩ := exists_announced hannounces
    rw [announced?_of_isVersion hfound] at h
    obtain rfl := Option.some.inj h
    exact ⟨rest, rfl, hfound⟩
  · intro h
    obtain ⟨rest, rfl, hversion⟩ := h
    exact announced?_of_isVersion hversion

end

/-! ### The pattern -/

def digits : Pattern := .run isDigit

def dot : Pattern := .word ['.']

def versionPattern : Pattern :=
  .seq digits (.seq dot (.seq digits (.maybe (.seq dot digits))))

def announcedPattern : Pattern := .seq (.word announcement) versionPattern

section
variable {s version front rest : List Char} {next : Pattern}

/-- Nothing fits without a dot and a digit if a digit has to come behind the dot. -/
theorem ways_dot_eq_nil (hnext : ∀ t, (∀ c ∈ t.head?, isDigit c = false) → next.ways t = [])
    (h : ¬IsDotted s) : (Pattern.seq dot next).ways s = [] := by
  cases hafter : Text.after? ['.'] s with
  | none => exact Pattern.ways_seq_eq_nil (Pattern.ways_word_eq_nil hafter) next
  | some t =>
    obtain rfl := Text.eq_append_of_after? hafter
    have ht : ∀ c ∈ t.head?, isDigit c = false := by
      intro c hc
      rw [← Bool.not_eq_true]
      intro hdigit
      obtain ⟨tail, rfl⟩ := List.head?_eq_some_iff.mp hc
      exact h ⟨c, tail, rfl, hdigit⟩
    rw [dot, Pattern.ways_word_seq, hnext t ht, List.map_nil]

theorem ways_digits_eq_nil (h : ∀ c ∈ s.head?, isDigit c = false) : digits.ways s = [] :=
  Text.runs_eq_nil h

theorem ways_digits_seq_eq_nil (h : ∀ c ∈ s.head?, isDigit c = false) (next : Pattern) :
    (Pattern.seq digits next).ways s = [] :=
  Pattern.ways_seq_eq_nil (ways_digits_eq_nil h) next

theorem head?_ways_dot (h : (next.ways rest).head? = some (front, s)) :
    ((Pattern.seq dot next).ways ('.' :: rest)).head? = some ('.' :: front, s) := by
  have hways := Pattern.ways_word_seq ['.'] rest next
  rw [List.singleton_append] at hways
  rw [dot, hways, List.head?_map, h]
  rfl

theorem head?_ways_digits (h : Text.IsRun isDigit front rest) :
    (digits.ways (front ++ rest)).head? = some (front, rest) := by
  obtain ⟨shorter, hruns, -⟩ := Text.runs_of_isRun h
  rw [digits, Pattern.ways, hruns, List.head?_cons]

/-- The way that is tried first takes all of a version. -/
theorem head?_ways_versionPattern (h : IsVersion version rest) :
    (versionPattern.ways (version ++ rest)).head? = some (version, rest) := by
  cases h with
  | @two major minor _ hmajor hminor hend =>
    have hpatch : ((Pattern.maybe (.seq dot digits)).ways rest).head? = some ([], rest) := by
      rw [Pattern.ways, ways_dot_eq_nil (fun t => ways_digits_eq_nil) hend]
      rfl
    have hbehind := Pattern.head?_ways_run_seq hminor hpatch
    rw [List.append_nil] at hbehind
    rw [List.append_assoc, List.cons_append]
    exact Pattern.head?_ways_run_seq hmajor (head?_ways_dot hbehind)
  | @three major minor patch _ hmajor hminor hpatch =>
    have hthird : ((Pattern.maybe (.seq dot digits)).ways ('.' :: (patch ++ rest))).head? =
        some ('.' :: patch, rest) := by
      rw [Pattern.ways, List.head?_append, head?_ways_dot (head?_ways_digits hpatch)]
      rfl
    have hbehind := Pattern.head?_ways_run_seq hminor hthird
    rw [List.append_assoc, List.cons_append, List.append_assoc, List.cons_append]
    exact Pattern.head?_ways_run_seq hmajor (head?_ways_dot hbehind)

/-- The pattern does not fit by giving back digits: what it leaves would begin with one. -/
theorem ways_versionPattern_eq_nil (h : ¬BeginsVersion s) : versionPattern.ways s = [] := by
  cases s with
  | nil => exact ways_digits_seq_eq_nil (by simp) _
  | cons c s =>
    by_cases hc : isDigit c
    · obtain ⟨front, rest, hs, hrun⟩ := Text.exists_isRun hc s
      have hrest : ¬IsDotted rest := fun hdotted =>
        h ⟨front, rest, hs, isNumber_of_isRun hrun, hdotted⟩
      have hnext (t : List Char) (ht : ¬IsDotted t) :
          (Pattern.seq dot (.seq digits (.maybe (.seq dot digits)))).ways t = [] :=
        ways_dot_eq_nil (fun _ hdigit => ways_digits_seq_eq_nil hdigit _) ht
      rw [hs, versionPattern, digits, Pattern.ways_run_seq hrun, ← digits, hnext rest hrest,
        List.map_nil]
      intro t ht
      apply hnext
      intro hdotted
      obtain ⟨d, tail, rfl, -⟩ := hdotted
      simp [not_isDigit_dot] at ht
    · exact ways_digits_seq_eq_nil (by simpa using hc) _

theorem ways_announcedPattern (s : List Char) :
    ((announcedPattern.ways s).head?.map (·.1)).map (·.drop announcement.length) =
      announced? s := by
  cases hafter : Text.after? announcement s with
  | none =>
    rw [announcedPattern, Pattern.ways_seq_eq_nil (Pattern.ways_word_eq_nil hafter), announced?,
      hafter]
    rfl
  | some rest =>
    obtain rfl := Text.eq_append_of_after? hafter
    rw [announcedPattern, Pattern.ways_word_seq, announced?, hafter, Option.bind_some]
    by_cases hbegins : BeginsVersion rest
    · obtain ⟨version, rest, rfl, hversion⟩ := exists_isVersion hbegins
      rw [List.head?_map, head?_ways_versionPattern hversion, leading?_of_isVersion hversion]
      simp
    · rw [ways_versionPattern_eq_nil hbegins, leading?_eq_none hbegins]
      rfl

end

/-- What is reported is what a greedy search for the pattern finds behind the announcement. -/
theorem reportedIn?_eq_search? (s : List Char) :
    reportedIn? s = (announcedPattern.search? s).map (·.drop announcement.length) := by
  rw [reportedIn?_eq, Pattern.search?, Text.atFirst?_map]
  congr 1
  funext t
  exact (ways_announcedPattern t).symm

/-! ### Reports -/

/-- A version is reported behind what stands before its announcement, and ends before the rest. -/
structure IsReport (text : List Char) (before version rest : List Char) : Prop where
  eq : text = before ++ (announcement ++ (version ++ rest))
  isVersion : IsVersion version rest
  /-- No earlier place announces a version. -/
  first : ∀ earlier later, text = earlier ++ later → Announces later →
    before.length ≤ earlier.length

theorem reportedIn?_eq_some_iff {s version : List Char} : reportedIn? s = some version ↔
    ∃ before rest, IsReport s before version rest := by
  rw [reportedIn?_eq, Text.atFirst?_eq_some_iff]
  constructor
  · intro h
    obtain ⟨before, after, rfl, hafter, hfirst⟩ := h
    obtain ⟨rest, rfl, hversion⟩ := announced?_eq_some_iff.mp hafter
    refine ⟨before, rest, rfl, hversion, fun earlier later hsplit hlater => ?_⟩
    exact hfirst.first earlier later hsplit (announced?_isSome_iff.mpr hlater)
  · intro h
    obtain ⟨before, rest, rfl, hversion, hfirst⟩ := h
    have hread := announced?_of_isVersion hversion
    refine ⟨before, _, rfl, hread, by rw [hread]; rfl, fun earlier later hsplit hlater => ?_⟩
    exact hfirst earlier later hsplit (announced?_isSome_iff.mp hlater)

theorem reportedIn?_isSome_iff {s : List Char} :
    (reportedIn? s).isSome ↔ ∃ before after, s = before ++ after ∧ Announces after := by
  simp only [reportedIn?_eq, Text.atFirst?_isSome_iff, announced?_isSome_iff]

theorem splitOn_number {front : List Char} (h : IsNumber front) (s : List Char) :
    (front ++ '.' :: s).splitOn '.' = front :: s.splitOn '.' ∧ front.splitOn '.' = [front] := by
  have hdotless : ∀ c ∈ front, (c == '.') = false := by
    intro c hc
    rw [beq_eq_false_iff_ne]
    intro hdot
    have hdigit := h.2 c hc
    rw [hdot, not_isDigit_dot] at hdigit
    cases hdigit
  constructor
  · exact List.splitOnP_append_cons_of_forall_mem hdotless '.' rfl s
  · exact List.splitOnP_eq_singleton hdotless

theorem numbers_of_isVersion {version rest : List Char} (h : IsVersion version rest) :
    ((version.splitOn '.').length = 2 ∨ (version.splitOn '.').length = 3) ∧
      ∀ part ∈ version.splitOn '.', IsNumber part := by
  cases h with
  | @two major minor _ hmajor hminor hend =>
    have hfirst := isNumber_of_isRun hmajor
    have hsecond := isNumber_of_isRun hminor
    rw [(splitOn_number hfirst _).1, (splitOn_number hsecond []).2]
    exact ⟨.inl rfl, by simp [hfirst, hsecond]⟩
  | @three major minor patch _ hmajor hminor hpatch =>
    have hfirst := isNumber_of_isRun hmajor
    have hsecond := isNumber_of_isRun hminor
    have hthird := isNumber_of_isRun hpatch
    rw [(splitOn_number hfirst _).1, (splitOn_number hsecond _).1, (splitOn_number hthird []).2]
    exact ⟨.inr rfl, by simp [hfirst, hsecond, hthird]⟩

/-- What is reported in a text, and when. -/
structure ReportsFirst (output : String) : Prop where
  isSome_iff : (reported? output).isSome ↔
    ∃ before after, output.toList = before ++ after ∧ Announces after
  eq_some_iff : ∀ version, reported? output = some version ↔
    ∃ before rest, IsReport output.toList before version.toList rest
  /-- Nothing but two or three numbers is reported, whatever stands behind them. -/
  numbers : ∀ version, reported? output = some version →
    ((components version).length = 2 ∨ (components version).length = 3) ∧
      ∀ part ∈ components version, IsNumber part
  /-- A greedy search from the left for the pattern finds the same. -/
  eq_search : reported? output = (announcedPattern.search? output.toList).map fun found =>
    String.ofList (found.drop announcement.length)

/--
A version is reported exactly if an announcement is followed by digits, a dot and a digit somewhere.
It stands behind the first such announcement and has all digits of its two or three numbers.
-/
theorem reported_first (output : String) : ReportsFirst output := by
  have hsome (version : String) : reported? output = some version ↔
      ∃ before rest, IsReport output.toList before version.toList rest := by
    rw [← reportedIn?_eq_some_iff, reported?, Option.map_eq_some_iff]
    constructor
    · intro h
      obtain ⟨found, hfound, rfl⟩ := h
      rwa [String.toList_ofList]
    · intro h
      exact ⟨version.toList, h, String.ofList_toList⟩
  constructor
  case isSome_iff => rw [reported?, Option.isSome_map, reportedIn?_isSome_iff]
  case eq_some_iff => exact hsome
  case numbers =>
    intro version h
    obtain ⟨before, rest, hreport⟩ := (hsome version).mp h
    exact numbers_of_isVersion hreport.isVersion
  case eq_search =>
    rw [reported?, reportedIn?_eq_search?, Option.map_map]
    rfl

/-- An announcement without a version and another one within it are passed over. -/
example : reported? "Python 3. Python Python 3.80.01.2rc1 Python 4.0" = some "3.80.01" := by
  decide +kernel

end BuildMatrix.Version
