import BuildMatrix.Proofs.FileSystem.Path
import Mathlib.Tactic.ByContra

/-!
# The directory that a path is in

The names of a path are those of the directory that it is in and one more, with single dots before
and after it. The path of the directory ends in a name, unless it has no names but dots.
-/

namespace BuildMatrix.Path

def steps (path : String) : List String := (names path).filter (· ≠ ".")

theorem filter_dots (n : Nat) : (List.replicate n ".").filter (· ≠ ".") = [] := by
  rw [List.filter_eq_nil_iff]
  intro name hname
  simp [List.eq_of_mem_replicate hname]

theorem namesIn_dropTrailing (s : List Char) : ∃ dots, namesIn s.reverse =
    namesIn (dropTrailing s).reverse ++ List.replicate dots "." := by
  fun_induction dropTrailing s with
  | case1 c s ih =>
      obtain ⟨dots, hdots⟩ := ih
      refine ⟨dots, ?_⟩
      rw [List.reverse_cons (a := '/'), namesIn_append, hdots, namesIn_nil, List.append_nil]
  | case2 c s ih =>
      obtain ⟨dots, hdots⟩ := ih
      refine ⟨dots + 1, ?_⟩
      have hdot : namesIn ['.'] = ["."] := by decide
      rw [List.reverse_cons (a := '.'), List.reverse_cons (a := '/'), List.append_assoc,
        List.singleton_append, namesIn_append, hdots, hdot, List.replicate_succ',
        List.append_assoc]
  | case3 => exact ⟨1, by decide⟩
  | case4 s _ _ _ => exact ⟨0, by simp⟩

/-- The first character stays. -/
theorem getLast?_dropTrailing (s : List Char) : (dropTrailing s).getLast? = s.getLast? := by
  fun_induction dropTrailing s with
  | case1 c s ih => rw [ih, List.getLast?_cons_cons]
  | case2 c s ih => rw [ih, List.getLast?_cons_cons, List.getLast?_cons_cons]
  | case3 => rfl
  | case4 s _ _ _ => rfl

theorem dropTrailing_ne_nil {s : List Char} (h : s ≠ []) : dropTrailing s ≠ [] := by
  intro hnil
  have hlast := getLast?_dropTrailing s
  rw [hnil, List.getLast?_nil] at hlast
  exact h (List.getLast?_eq_none_iff.mp hlast.symm)

/-- What is left starts with a name that is no dot, unless there is none. -/
theorem dropTrailing_cases (s : List Char) :
    dropTrailing s ∈ [[], ['/'], ['.']] ∨
      ∃ part rest, dropTrailing s = part ++ rest ∧ part ≠ [] ∧ '/' ∉ part ∧ part ≠ ['.'] ∧
        rest = (dropTrailing s).dropWhile (· != '/') := by
  fun_induction dropTrailing s with
  | case1 c s ih => exact ih
  | case2 c s ih => exact ih
  | case3 => exact .inl (by simp)
  | case4 s hslash hdot hroot =>
      cases s with
      | nil => exact .inl (by simp)
      | cons c s =>
          by_cases hc : c = '/'
          · subst hc
            cases s with
            | nil => exact .inl (by simp)
            | cons d s => exact absurd rfl (hslash d s)
          by_cases hsingle : c = '.' ∧ s = []
          · obtain ⟨rfl, rfl⟩ := hsingle
            exact .inl (by simp)
          · refine .inr ⟨(c :: s).takeWhile (· != '/'), (c :: s).dropWhile (· != '/'),
              List.takeWhile_append_dropWhile.symm, ?_, ?_, ?_, rfl⟩
            · simp [hc]
            · intro hmem
              have hkept := List.all_takeWhile (p := (· != '/')) (l := c :: s)
              simpa using List.all_eq_true.mp hkept '/' hmem
            · rw [List.takeWhile_cons_of_pos (by simpa using hc)]
              intro heq
              obtain ⟨rfl, hnil⟩ := List.cons.inj heq
              cases s with
              | nil => exact hsingle ⟨rfl, rfl⟩
              | cons d s =>
                  -- A dot before the end of a name is part of the name.
                  have hd : d ≠ '/' := by
                    rintro rfl
                    cases s with
                    | nil => exact hroot rfl
                    | cons e s => exact hdot e s rfl
                  simp [hd] at hnil

/-- A path that ends in a name, or has no names but dots. -/
def Trimmed (path : String) : Prop :=
  steps path = [] ∨ endsInSlash path = false ∧ ∃ front name, names path = front ++ [name] ∧
    name ≠ "."

theorem namesIn_reverse {path part rest : List Char} (hsplit : path = part ++ rest)
    (hrest : rest = path.dropWhile (· != '/')) (hne : part ≠ []) (hslash : '/' ∉ part) :
    namesIn path.reverse = namesIn rest.reverse ++ [String.ofList part.reverse] := by
  have hpart : namesIn part.reverse = [String.ofList part.reverse] :=
    namesIn_of_not_mem (by simpa using hslash) (by simpa using hne)
  have hhead := List.head?_dropWhile_not (· != '/') path
  rw [← hrest] at hhead
  rw [hsplit, List.reverse_append]
  cases rest with
  | nil => exact hpart
  | cons c more =>
      obtain rfl : c = '/' := by simpa using hhead
      rw [List.reverse_cons, List.append_assoc, List.singleton_append, namesIn_append,
        namesIn_append, namesIn_nil, List.append_nil, hpart]

theorem ofList_reverse_ne_dot {part : List Char} (h : part ≠ ['.']) :
    String.ofList part.reverse ≠ "." := by
  intro heq
  have hlist := congrArg (fun s => s.toList.reverse) heq
  simp only [String.toList_ofList, List.reverse_reverse] at hlist
  exact h hlist

theorem trimmed_dropTrailing (s : List Char) :
    Trimmed (String.ofList (dropTrailing s).reverse) := by
  rcases dropTrailing_cases s with hnone | ⟨part, rest, hsplit, hne, hslash, hdot, hrest⟩
  · simp only [List.mem_cons, List.not_mem_nil, or_false] at hnone
    rcases hnone with hnone | hnone | hnone
    · rw [hnone]
      exact .inl (by decide)
    · rw [hnone]
      exact .inl (by decide)
    · rw [hnone]
      exact .inl (by decide)
  · refine .inr ⟨?_, namesIn rest.reverse, String.ofList part.reverse, ?_,
      ofList_reverse_ne_dot hdot⟩
    · rw [endsInSlash, String.toList_ofList, List.getLast?_reverse, hsplit,
        decide_eq_false_iff_not]
      cases part with
      | nil => exact absurd rfl hne
      | cons c part =>
          intro hhead
          obtain rfl : c = '/' := by simpa using hhead
          exact hslash List.mem_cons_self
    · rw [names_eq, String.toList_ofList, namesIn_reverse hsplit hrest hne hslash]

/-- How a path goes on after the path of the directory that it is in. -/
structure Continues (path parent name : String) : Prop where
  absolute : isAbsolute parent = isAbsolute path
  name_ne : name ≠ "."
  names : ∃ before after, names path = names parent ++ List.replicate before "." ++
    name :: List.replicate after "." ∧ (parent = "" → before = 0)
  trimmed : Trimmed parent

theorem exists_parent? {path : String} (h : steps path ≠ []) :
    ∃ parent name, parent? path = some parent ∧ Continues path parent name := by
  obtain ⟨after, hafter⟩ := namesIn_dropTrailing path.toList.reverse
  rw [List.reverse_reverse, ← names_eq] at hafter
  have hlast := getLast?_dropTrailing path.toList.reverse
  have hcases := dropTrailing_cases path.toList.reverse
  unfold parent?
  generalize dropTrailing path.toList.reverse = reversed at hafter hlast hcases ⊢
  rcases hcases with hnone | ⟨part, rest, hsplit, hne, hslash, hdot, hrest⟩
  · -- Without a last name there would be no name at all.
    have hsteps : (namesIn reversed.reverse).filter (· ≠ ".") = [] := by
      simp only [List.mem_cons, List.not_mem_nil, or_false] at hnone
      rcases hnone with rfl | rfl | rfl
      · decide
      · decide
      · decide
    rw [steps, hafter, List.filter_append, hsteps, filter_dots, List.nil_append] at h
    exact absurd rfl h
  · have hempty : ¬(reversed.isEmpty || reversed = ['/']) := by
      rw [hsplit]
      cases part with
      | nil => exact absurd rfl hne
      | cons c part =>
          have hc : c ≠ '/' := by
            rintro rfl
            exact hslash List.mem_cons_self
          simp [hc]
    obtain ⟨before, hbefore⟩ := namesIn_dropTrailing rest
    rw [if_neg hempty, ← hrest]
    refine ⟨_, String.ofList part.reverse, rfl, ?_, ofList_reverse_ne_dot hdot,
      ⟨before, after, ?_, fun hparent => ?_⟩, trimmed_dropTrailing rest⟩
    · have hpath : path.toList.head? = reversed.getLast? := by
        rw [hlast, List.getLast?_reverse]
      have hparent : (dropTrailing rest).reverse.head? = rest.getLast? := by
        rw [List.head?_reverse, getLast?_dropTrailing]
      rw [isAbsolute, isAbsolute, String.toList_ofList, hparent, hpath, hsplit, decide_eq_decide]
      cases hrest' : rest with
      | nil =>
          have hnot : part.getLast? ≠ some '/' := by
            intro hslash'
            exact hslash (List.mem_of_getLast? hslash')
          simp [hnot]
      | cons c more =>
          rw [List.getLast?_append, List.getLast?_eq_some_getLast (List.cons_ne_nil c more),
            Option.some_or]
    · rw [hafter, namesIn_reverse hsplit hrest hne hslash, hbefore, names_eq, String.toList_ofList,
        List.append_assoc _ [_], List.singleton_append]
    · -- The parent is empty only if there is nothing before the last name.
      have hnil : dropTrailing rest = [] := by simpa using hparent
      have hrest' : rest = [] := by
        by_contra hne'
        exact dropTrailing_ne_nil hne' hnil
      rw [hnil, hrest'] at hbefore
      simpa using hbefore.symm

/-- The names of the directory are the first ones, and no others but dots are left out. -/
theorem Continues.steps_eq {path parent name : String} (h : Continues path parent name) :
    steps path = steps parent ++ [name] := by
  obtain ⟨before, after, hnames, -⟩ := h.names
  rw [steps, hnames, List.filter_append, List.filter_append, filter_dots, List.append_nil,
    List.filter_cons_of_pos (by simpa using h.name_ne), filter_dots]
  rfl

end BuildMatrix.Path
