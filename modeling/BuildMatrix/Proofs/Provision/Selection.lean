import BuildMatrix.Proofs.Text.Replacement
import BuildMatrix.Provision
import Mathlib.Data.List.Forall2

/-!
# Which interpreter is provisioned

The search for an interpreter is compared with an inquiry that asks all candidates. The search takes
the first one whose answer fits and stops there. The other answers only matter if none fits, and then
it only matters whether one of them was late.
-/

namespace BuildMatrix

namespace Version

/-- A reported version is the requested one or continues it after a dot. -/
def Satisfies (requested reported : String) : Prop :=
  reported = requested ∨ ∃ rest, reported = requested ++ "." ++ rest

theorem satisfies_iff {requested reported : String} :
    satisfies requested reported ↔ Satisfies requested reported := by
  rw [satisfies, Bool.or_eq_true, beq_iff_eq, Text.startsWith_iff, Satisfies]
  apply or_congr_right
  constructor
  · intro h
    obtain ⟨rest, hrest⟩ := h
    refine ⟨String.ofList rest, String.toList_inj.mp ?_⟩
    simp [← hrest]
  · intro h
    obtain ⟨rest, rfl⟩ := h
    exact ⟨rest.toList, by simp⟩

end Version

namespace Provisioner

variable {σ : Type}

/-- Asks all candidates one after the other: the host afterwards, and what each of them answers. -/
def inquire (probe : σ → String → σ × Probe) : (candidates : List String) → (host : σ) →
    σ × List Probe
  | [], host => (host, [])
  | candidate :: rest, host =>
    let (asked, answer) := probe host candidate
    let (after, answers) := inquire probe rest asked
    (after, answer :: answers)

/-- Asks candidates and keeps a list of those that were asked. -/
def recorded (probe : σ → String → σ × Probe) (host : σ × List String) (candidate : String) :
    (σ × List String) × Probe :=
  let (asked, answer) := probe host.1 candidate
  ((asked, host.2 ++ [candidate]), answer)

structure FirstFit (version : String) (answers : List Probe) (n : Nat) : Prop where
  fits : ∃ reported, answers[n]? = some (.reported reported) ∧ Version.Satisfies version reported
  first : ∀ m < n, ∀ reported, answers[m]? = some (.reported reported) →
    ¬Version.Satisfies version reported

section
variable (probe : σ → String → σ × Probe) (version : String)

theorem length_inquire (candidates : List String) (host : σ) :
    (inquire probe candidates host).2.length = candidates.length := by
  induction candidates generalizing host with
  | nil => rfl
  | cons candidate rest ih => simp [inquire, ih]

theorem inquire_recorded (candidates : List String) (host : σ) (asked : List String) :
    inquire (recorded probe) candidates (host, asked) =
      (((inquire probe candidates host).1, asked ++ candidates),
        (inquire probe candidates host).2) := by
  induction candidates generalizing host asked with
  | nil => simp [inquire]
  | cons candidate rest ih => simp [inquire, recorded, ih]

/-- Candidates that answer whatever the state of the host is answer as they are assigned. -/
theorem answers_of_assigned {probe : σ → String → σ × Probe} {assigned : String → Probe}
    (h : ∀ host candidate, (probe host candidate).2 = assigned candidate)
    (candidates : List String) (host : σ) :
    (inquire probe candidates host).2 = candidates.map assigned := by
  induction candidates generalizing host with
  | nil => rfl
  | cons candidate rest ih => simp [inquire, h, ih]

end

theorem fits_iff {version : String} {answer : Probe} :
    answer.fits version ↔ ∃ reported, answer = .reported reported ∧
      Version.Satisfies version reported := by
  cases answer with
  | reported reported => simp [Probe.fits, Version.satisfies_iff]
  | unavailable => simp [Probe.fits]
  | timedOut => simp [Probe.fits]

section
variable {version : String} {answer : Probe} {answers : List Probe} {n : Nat}

theorem FirstFit.head (h : FirstFit version (answer :: answers) 0) : answer.fits version := by
  obtain ⟨reported, hanswer, hfits⟩ := h.fits
  exact fits_iff.mpr ⟨reported, Option.some.inj hanswer, hfits⟩

theorem FirstFit.passes (h : FirstFit version (answer :: answers) (n + 1)) :
    ¬answer.fits version := by
  intro hfits
  obtain ⟨reported, rfl, hsatisfies⟩ := fits_iff.mp hfits
  exact h.first 0 (Nat.succ_pos n) reported rfl hsatisfies

theorem FirstFit.tail (h : FirstFit version (answer :: answers) (n + 1)) :
    FirstFit version answers n := by
  constructor
  · exact h.fits
  · intro m hm reported hanswer
    exact h.first (m + 1) (Nat.succ_lt_succ hm) reported hanswer

theorem search_of_firstFit (probe : σ → String → σ × Probe) {candidates : List String} {host : σ}
    {candidate : String} (h : FirstFit version (inquire probe candidates host).2 n)
    (hcandidate : candidates[n]? = some candidate) (timedOut : Bool) :
    search probe version timedOut candidates host =
      ((inquire probe (candidates.take (n + 1)) host).1, .ok ⟨version, candidate⟩) := by
  induction candidates generalizing host timedOut n with
  | nil => cases hcandidate
  | cons first rest ih =>
    rw [inquire] at h
    cases n with
    | zero =>
      obtain rfl : first = candidate := by simpa using hcandidate
      simp only [search, h.head, if_true, List.take_succ_cons, List.take_zero, inquire]
    | succ n =>
      simp only [search, h.passes, Bool.false_eq_true, if_false, List.take_succ_cons, inquire]
      exact ih h.tail (by simpa using hcandidate) _

/-- A search without success remembers whether a candidate was late. -/
theorem search_of_noFit (probe : σ → String → σ × Probe) {candidates : List String} {host : σ}
    (h : ∀ answer ∈ (inquire probe candidates host).2, ¬answer.fits version) (timedOut : Bool) :
    search probe version timedOut candidates host =
      ((inquire probe candidates host).1,
        .error (timedOut || (inquire probe candidates host).2.contains .timedOut)) := by
  induction candidates generalizing host timedOut with
  | nil => simp [search, inquire]
  | cons first rest ih =>
    rw [inquire] at h
    obtain ⟨hfirst, hrest⟩ := List.forall_mem_cons.mp h
    simp only [search, hfirst, Bool.false_eq_true, if_false, ih hrest, inquire, Bool.or_assoc,
      List.contains_cons, Bool.beq_comm]

def NoFit (version : String) (answers : List Probe) : Prop :=
  ∀ reported, .reported reported ∈ answers → ¬Version.Satisfies version reported

theorem firstFit_or_noFit (version : String) (answers : List Probe) :
    (∃ n, FirstFit version answers n) ∨ NoFit version answers := by
  cases hfound : answers.findIdx? (·.fits version) with
  | some n =>
    obtain ⟨hn, hfits, hbefore⟩ := List.findIdx?_eq_some_iff_getElem.mp hfound
    obtain ⟨reported, hreported, hsatisfies⟩ := fits_iff.mp hfits
    refine .inl ⟨n, ⟨reported, ?_, hsatisfies⟩, ?_⟩
    · rw [List.getElem?_eq_getElem hn, hreported]
    · intro m hm other hother hsatisfies'
      obtain ⟨hlt, he⟩ := List.getElem?_eq_some_iff.mp hother
      exact hbefore m hm (fits_iff.mpr ⟨other, he, hsatisfies'⟩)
  | none =>
    refine .inr fun reported hmem hsatisfies => ?_
    have hno := List.findIdx?_eq_none_iff.mp hfound _ hmem
    rw [fits_iff.mpr ⟨reported, rfl, hsatisfies⟩] at hno
    cases hno

theorem FirstFit.not_noFit (h : FirstFit version answers n) : ¬NoFit version answers := by
  intro hno
  obtain ⟨reported, hanswer, hsatisfies⟩ := h.fits
  exact hno reported (List.mem_of_getElem? hanswer) hsatisfies

theorem FirstFit.unique {m : Nat} (hn : FirstFit version answers n)
    (hm : FirstFit version answers m) : n = m := by
  obtain ⟨reported, hreported, hsatisfies⟩ := hn.fits
  obtain ⟨other, hother, hsatisfies'⟩ := hm.fits
  apply Nat.le_antisymm
  · exact Nat.le_of_not_lt fun hlt => hn.first m hlt other hother hsatisfies'
  · exact Nat.le_of_not_lt fun hlt => hm.first n hlt reported hreported hsatisfies

end

section
variable (provisioner : Provisioner) (probe : σ → String → σ × Probe) (version : String) (host : σ)

def answersFor : List Probe := (inquire probe (provisioner.candidatesFor version) host).2

variable {provisioner probe version host}

theorem provision_of_firstFit {n : Nat} {candidate : String}
    (h : FirstFit version (provisioner.answersFor probe version host) n)
    (hcandidate : (provisioner.candidatesFor version)[n]? = some candidate) :
    provisioner.provision probe version host =
      ((inquire probe ((provisioner.candidatesFor version).take (n + 1)) host).1,
        .ok ⟨version, candidate⟩) := by
  rw [provision, search_of_firstFit probe h hcandidate]

theorem provision_of_noFit (h : NoFit version (provisioner.answersFor probe version host)) :
    provisioner.provision probe version host =
      ((inquire probe (provisioner.candidatesFor version) host).1,
        .error (if .timedOut ∈ provisioner.answersFor probe version host
          then .timeout version provisioner.timeoutSeconds
          else .notFound version (provisioner.candidatesFor version))) := by
  have hno : ∀ answer ∈ provisioner.answersFor probe version host, ¬answer.fits version := by
    intro answer hmem hfits
    obtain ⟨reported, rfl, hsatisfies⟩ := fits_iff.mp hfits
    exact h reported hmem hsatisfies
  have hlate : (inquire probe (provisioner.candidatesFor version) host).2.contains .timedOut =
      decide (.timedOut ∈ provisioner.answersFor probe version host) :=
    List.contains_eq_mem _ _
  rw [provision, search_of_noFit probe hno, hlate, Bool.false_or]
  by_cases hmem : .timedOut ∈ provisioner.answersFor probe version host
  · rw [decide_eq_true hmem, if_pos hmem]
  · rw [decide_eq_false hmem, if_neg hmem]

theorem answersFor_recorded (asked : List String) :
    provisioner.answersFor (recorded probe) version (host, asked) =
      provisioner.answersFor probe version host := by
  rw [answersFor, inquire_recorded, answersFor]

end

/-- Which interpreter is taken, by what the candidates would answer if all of them were asked. -/
structure Selects (provisioner : Provisioner) (probe : σ → String → σ × Probe) (version : String)
    (host : σ) : Prop where
  /-- The candidates are the given ones, with the version in place of each placeholder. -/
  candidates : List.Forall₂ (Text.Replaced placeholder version) provisioner.candidates
    (provisioner.candidatesFor version)
  /-- The first candidate that fits is taken, no matter which ones were late before it. -/
  ok_iff : ∀ toolchain, (provisioner.provision probe version host).2 = .ok toolchain ↔
    ∃ n candidate, FirstFit version (provisioner.answersFor probe version host) n ∧
      (provisioner.candidatesFor version)[n]? = some candidate ∧ toolchain = ⟨version, candidate⟩
  timeout_iff : (provisioner.provision probe version host).2 =
      .error (.timeout version provisioner.timeoutSeconds) ↔
    NoFit version (provisioner.answersFor probe version host) ∧
      .timedOut ∈ provisioner.answersFor probe version host
  notFound_iff : (provisioner.provision probe version host).2 =
      .error (.notFound version (provisioner.candidatesFor version)) ↔
    NoFit version (provisioner.answersFor probe version host) ∧
      .timedOut ∉ provisioner.answersFor probe version host
  /-- There is no other error. -/
  error : ∀ e, (provisioner.provision probe version host).2 = .error e →
    e = .timeout version provisioner.timeoutSeconds ∨
      e = .notFound version (provisioner.candidatesFor version)
  /-- No candidate after the one that is taken is asked. -/
  asked : ∀ n, FirstFit version (provisioner.answersFor probe version host) n →
    (provisioner.provision probe version host).1 =
      (inquire probe ((provisioner.candidatesFor version).take (n + 1)) host).1 ∧
    (provisioner.provision (recorded probe) version (host, [])).1.2 =
      (provisioner.candidatesFor version).take (n + 1)
  askedAll : NoFit version (provisioner.answersFor probe version host) →
    (provisioner.provision probe version host).1 =
      (inquire probe (provisioner.candidatesFor version) host).1 ∧
    (provisioner.provision (recorded probe) version (host, [])).1.2 =
      provisioner.candidatesFor version
  /-- The answers are those that are assigned to the candidates, if the host does not matter. -/
  assigned : ∀ answer : String → Probe,
    (∀ host candidate, (probe host candidate).2 = answer candidate) →
    provisioner.answersFor probe version host = (provisioner.candidatesFor version).map answer

theorem replaced_candidatesFor (provisioner : Provisioner) (version : String) :
    List.Forall₂ (Text.Replaced placeholder version) provisioner.candidates
      (provisioner.candidatesFor version) := by
  rw [candidatesFor, List.forall₂_map_right_iff, List.forall₂_same]
  intro candidate _
  exact Text.replaced_replace (by decide) version candidate

section
variable {provisioner : Provisioner} {probe : σ → String → σ × Probe} {version : String} {host : σ}

theorem selects_of_firstFit {n : Nat}
    (hn : FirstFit version (provisioner.answersFor probe version host) n) :
    provisioner.Selects probe version host := by
  obtain ⟨candidate, hcandidate⟩ : ∃ candidate,
      (provisioner.candidatesFor version)[n]? = some candidate := by
    obtain ⟨reported, hanswer, -⟩ := hn.fits
    obtain ⟨hlt, -⟩ := List.getElem?_eq_some_iff.mp hanswer
    rw [answersFor, length_inquire] at hlt
    exact ⟨_, List.getElem?_eq_getElem hlt⟩
  have hfound := provision_of_firstFit hn hcandidate
  constructor
  case candidates => exact replaced_candidatesFor provisioner version
  case ok_iff =>
    intro toolchain
    rw [hfound]
    constructor
    · intro he
      exact ⟨n, candidate, hn, hcandidate, (Except.ok.inj he).symm⟩
    · intro hexists
      obtain ⟨m, other, hm, hother, rfl⟩ := hexists
      obtain rfl := hn.unique hm
      rw [Option.some.inj (hcandidate.symm.trans hother)]
  case timeout_iff =>
    rw [hfound]
    exact iff_of_false (by simp) fun h => hn.not_noFit h.1
  case notFound_iff =>
    rw [hfound]
    exact iff_of_false (by simp) fun h => hn.not_noFit h.1
  case error =>
    intro e he
    rw [hfound] at he
    cases he
  case asked =>
    intro m hm
    obtain rfl := hn.unique hm
    have hrecorded := hn
    rw [← answersFor_recorded []] at hrecorded
    rw [hfound, provision_of_firstFit hrecorded hcandidate, inquire_recorded]
    exact ⟨rfl, List.nil_append _⟩
  case askedAll =>
    intro hno
    exact absurd hno hn.not_noFit
  case assigned =>
    intro answer hassigned
    exact answers_of_assigned hassigned (provisioner.candidatesFor version) host

theorem selects_of_noFit (hno : NoFit version (provisioner.answersFor probe version host)) :
    provisioner.Selects probe version host := by
  have hfailed := provision_of_noFit hno
  constructor
  case candidates => exact replaced_candidatesFor provisioner version
  case ok_iff =>
    intro toolchain
    rw [hfailed]
    refine iff_of_false (by simp) fun h => ?_
    obtain ⟨n, -, hn, -⟩ := h
    exact hn.not_noFit hno
  case timeout_iff =>
    rw [hfailed]
    by_cases hlate : .timedOut ∈ provisioner.answersFor probe version host
    · rw [if_pos hlate]
      exact iff_of_true rfl ⟨hno, hlate⟩
    · rw [if_neg hlate]
      exact iff_of_false (by simp) fun h => hlate h.2
  case notFound_iff =>
    rw [hfailed]
    by_cases hlate : .timedOut ∈ provisioner.answersFor probe version host
    · rw [if_pos hlate]
      exact iff_of_false (by simp) fun h => h.2 hlate
    · rw [if_neg hlate]
      exact iff_of_true rfl ⟨hno, hlate⟩
  case error =>
    intro e he
    rw [hfailed] at he
    rw [← Except.error.inj he]
    split
    · exact .inl rfl
    · exact .inr rfl
  case asked =>
    intro n hn
    exact absurd hno hn.not_noFit
  case askedAll =>
    intro _
    have hrecorded := hno
    rw [← answersFor_recorded []] at hrecorded
    rw [hfailed, provision_of_noFit hrecorded, inquire_recorded]
    exact ⟨rfl, List.nil_append _⟩
  case assigned =>
    intro answer hassigned
    exact answers_of_assigned hassigned (provisioner.candidatesFor version) host

end

/--
The interpreter of a version is the first candidate that reports a version which satisfies the
request, and no candidate after it is asked. If there is none, the error is a timeout exactly if
a candidate was late, and else it lists all candidates.
-/
theorem selects_first_fit (provisioner : Provisioner) (probe : σ → String → σ × Probe)
    (version : String) (host : σ) : provisioner.Selects probe version host := by
  cases firstFit_or_noFit version (provisioner.answersFor probe version host) with
  | inl hfit =>
    obtain ⟨n, hn⟩ := hfit
    exact selects_of_firstFit hn
  | inr hno => exact selects_of_noFit hno

/-- The versioned name hangs, the next one is another release, and the last one fits. -/
example :
    (usual.provision (recorded fun host candidate =>
        (host, if candidate == "python3.8" then .timedOut
          else if candidate == "python3" then .ofText "Python 3.9.1"
          else .ofText "Python 3.8.10")) "3.8" ((), [])) =
      (((), ["python3.8", "python3", "python"]), .ok ⟨"3.8", "python"⟩) := by
  decide +kernel

end Provisioner

end BuildMatrix
