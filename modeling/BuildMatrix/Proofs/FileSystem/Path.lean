import BuildMatrix.FileSystem.Path

/-!
# Names in paths

The names of a joined path are those of its parts, and the names of the directory that a path is in
are the first names of the path. Paths with equal components have the same names, except for single
dots.
-/

namespace BuildMatrix

namespace Text

theorem splitAt_ne_nil (sep : Char) (s : List Char) : splitAt sep s ≠ [] := by
  cases s with
  | nil => simp [splitAt]
  | cons c s =>
      simp only [splitAt]
      split
      · simp
      · split <;> simp

theorem splitAt_append (sep : Char) (s t : List Char) :
    splitAt sep (s ++ sep :: t) = splitAt sep s ++ splitAt sep t := by
  induction s with
  | nil => simp [splitAt]
  | cons c s ih =>
      simp only [List.cons_append, splitAt, ih]
      by_cases hc : c = sep
      · simp [hc]
      · simp only [hc, if_false]
        cases hs : splitAt sep s with
        | nil => exact absurd hs (splitAt_ne_nil sep s)
        | cons part parts => rfl

theorem splitAt_of_not_mem {sep : Char} {s : List Char} (h : sep ∉ s) : splitAt sep s = [s] := by
  induction s with
  | nil => rfl
  | cons c s ih =>
      obtain ⟨hc, hs⟩ : ¬sep = c ∧ sep ∉ s := by simpa using h
      simp [splitAt, Ne.symm hc, ih hs]

end Text

namespace Path

def namesIn (s : List Char) : List String :=
  ((Text.splitAt '/' s).filter fun part => !part.isEmpty).map String.ofList

theorem names_eq (path : String) : names path = namesIn path.toList := rfl

@[simp] theorem namesIn_nil : namesIn [] = [] := rfl

theorem namesIn_append (s t : List Char) : namesIn (s ++ '/' :: t) = namesIn s ++ namesIn t := by
  simp [namesIn, Text.splitAt_append]

theorem namesIn_of_not_mem {s : List Char} (h : '/' ∉ s) (hne : s ≠ []) :
    namesIn s = [String.ofList s] := by
  simp [namesIn, Text.splitAt_of_not_mem h, hne]

theorem namesIn_append_of_slash {s : List Char} (h : s.getLast? = some '/') (t : List Char) :
    namesIn (s ++ t) = namesIn s ++ namesIn t := by
  obtain ⟨front, rfl⟩ := List.getLast?_eq_some_iff.mp h
  rw [List.append_assoc, List.singleton_append, namesIn_append, namesIn_append]
  simp

theorem names_of_not_mem {name : String} (h : '/' ∉ name.toList) (hne : name ≠ "") :
    names name = [name] := by
  rw [names_eq, namesIn_of_not_mem h (by simpa using hne), String.ofList_toList]

theorem toList_join (base : String) {path : String} (h : isAbsolute path = false) :
    (join base path).toList = base.toList ++ path.toList ∧ (base = "" ∨ endsInSlash base) ∨
      (join base path).toList = base.toList ++ '/' :: path.toList ∧ base ≠ "" := by
  unfold join
  rw [if_neg (by simp [h])]
  split
  · next hb => exact .inl ⟨by simp, by simpa using hb⟩
  · next hb => exact .inr ⟨by simp, by rintro rfl; simp at hb⟩

/-- All that is joined to a base stands behind the same text. -/
theorem exists_front_join (base : String) : ∃ front : List Char, ∀ path,
    isAbsolute path = false → (join base path).toList = front ++ path.toList := by
  by_cases hbase : base.isEmpty || endsInSlash base
  · refine ⟨base.toList, fun path h => ?_⟩
    rw [join, if_neg (by simp [h]), if_pos hbase, String.toList_append]
  · refine ⟨(base ++ "/").toList, fun path h => ?_⟩
    rw [join, if_neg (by simp [h]), if_neg hbase, String.toList_append]

theorem names_join {path : String} (h : isAbsolute path = false) (base : String) :
    names (join base path) = names base ++ names path := by
  simp only [names_eq]
  rcases toList_join base h with ⟨hj, rfl | hslash⟩ | ⟨hj, -⟩
  · rw [hj]
    rfl
  · rw [hj]
    exact namesIn_append_of_slash (by simpa [endsInSlash] using hslash) _
  · rw [hj, namesIn_append]

theorem isAbsolute_join {path : String} (h : isAbsolute path = false) (base : String) :
    isAbsolute (join base path) = isAbsolute base := by
  have hpath : ¬path.toList.head? = some '/' := by simpa [isAbsolute] using h
  simp only [isAbsolute, decide_eq_decide]
  rcases toList_join base h with ⟨hj, rfl | hslash⟩ | ⟨hj, hbase⟩
  · rw [hj]
    simpa using hpath
  · rw [hj]
    cases hb : base.toList with
    | nil => simp [endsInSlash, hb] at hslash
    | cons c s => rfl
  · rw [hj]
    cases hb : base.toList with
    | nil => exact absurd (by simpa using hb) hbase
    | cons c s => rfl

theorem le_utf8ByteSize_join {path : String} (h : isAbsolute path = false) (base : String) :
    base.utf8ByteSize + path.utf8ByteSize ≤ (join base path).utf8ByteSize := by
  unfold join
  rw [if_neg (by simp [h])]
  split
  · exact Nat.le_of_eq String.utf8ByteSize_append.symm
  · rw [String.utf8ByteSize_append, String.utf8ByteSize_append]
    omega

/-- Below one directory, different names are different places. -/
theorem join_inj {base a b : String} (ha : isAbsolute a = false) (hb : isAbsolute b = false) :
    join base a = join base b ↔ a = b := by
  refine ⟨fun h => ?_, fun h => h ▸ rfl⟩
  have hna : ¬isAbsolute a := by simp [ha]
  have hnb : ¬isAbsolute b := by simp [hb]
  rw [join, join, if_neg hna, if_neg hnb] at h
  by_cases hbase : base.isEmpty || endsInSlash base
  · rw [if_pos hbase, if_pos hbase] at h
    exact (String.append_right_inj base).mp h
  · rw [if_neg hbase, if_neg hbase] at h
    exact (String.append_right_inj (base ++ "/")).mp h

theorem endsInSlash_join {path : String} (h : isAbsolute path = false) (hne : path ≠ "")
    (base : String) : endsInSlash (join base path) = endsInSlash path := by
  have hlast (s : List Char) : (s ++ path.toList).getLast? = path.toList.getLast? := by
    have hlist : path.toList ≠ [] := by simpa using hne
    rw [List.getLast?_append, List.getLast?_eq_some_getLast hlist, Option.some_or]
  simp only [endsInSlash]
  rcases toList_join base h with ⟨hj, -⟩ | ⟨hj, -⟩
  · rw [hj, hlast]
  · rw [hj, ← List.singleton_append, ← List.append_assoc, hlast]

theorem isAbsolute_of_not_mem {name : String} (h : '/' ∉ name.toList) :
    isAbsolute name = false := by
  simp only [isAbsolute, decide_eq_false_iff_not]
  intro hhead
  exact h (List.mem_of_mem_head? hhead)

/-- The first part of a path, cut off before or after a slash, has its first names. -/
theorem namesIn_prefix {s t : List Char}
    (h : s = [] ∨ s.getLast? = some '/' ∨ t = [] ∨ t.head? = some '/') :
    namesIn s <+: namesIn (s ++ t) := by
  rcases h with rfl | hs | rfl | ht
  · exact List.nil_prefix
  · exact ⟨namesIn t, (namesIn_append_of_slash hs t).symm⟩
  · simp only [List.append_nil, List.prefix_rfl]
  · cases t with
    | nil => simp at ht
    | cons c t =>
        obtain rfl : c = '/' := by simpa using ht
        exact ⟨namesIn t, (namesIn_append s t).symm⟩

/-- What is left of a path from which only its end was dropped. -/
structure IsFront (front path : List Char) : Prop where
  chars : front <+: path
  names : namesIn front <+: namesIn path

theorem IsFront.refl (path : List Char) : IsFront path path := ⟨List.prefix_rfl, List.prefix_rfl⟩

theorem IsFront.trans {a b c : List Char} (h : IsFront a b) (h' : IsFront b c) : IsFront a c :=
  ⟨h.chars.trans h'.chars, h.names.trans h'.names⟩

theorem isFront_of_boundary {s t : List Char}
    (h : s = [] ∨ s.getLast? = some '/' ∨ t = [] ∨ t.head? = some '/') : IsFront s (s ++ t) :=
  ⟨List.prefix_append _ _, namesIn_prefix h⟩

theorem isFront_dropTrailing (s : List Char) : IsFront (dropTrailing s).reverse s.reverse := by
  fun_induction dropTrailing s with
  | case1 c s ih =>
      apply ih.trans
      rw [List.reverse_cons (a := '/')]
      exact isFront_of_boundary (.inr (.inr (.inr rfl)))
  | case2 c s ih =>
      apply ih.trans
      rw [List.reverse_cons (a := '.'), List.reverse_cons (a := '/'), List.append_assoc]
      exact isFront_of_boundary (.inr (.inr (.inr rfl)))
  | case3 => exact ⟨⟨['.'], rfl⟩, List.nil_prefix⟩
  | case4 s _ _ _ => exact .refl _

/-- The directory that a path is in has the first names of the path. -/
theorem isFront_parent? {path parent : String} (h : parent? path = some parent) :
    IsFront parent.toList path.toList := by
  unfold parent? at h
  simp only at h
  split at h
  · cases h
  · obtain rfl := Option.some.inj h
    have hfirst := isFront_dropTrailing path.toList.reverse
    rw [List.reverse_reverse] at hfirst
    refine IsFront.trans ?_ hfirst
    generalize dropTrailing path.toList.reverse = reversed
    rw [String.toList_ofList]
    refine (isFront_dropTrailing _).trans ?_
    have hsplit : reversed.reverse = (reversed.dropWhile (· != '/')).reverse ++
        (reversed.takeWhile (· != '/')).reverse := by
      rw [← List.reverse_append, List.takeWhile_append_dropWhile]
    rw [hsplit]
    apply isFront_of_boundary
    cases hd : reversed.dropWhile (· != '/') with
    | nil => exact .inl rfl
    | cons c rest =>
        refine .inr (.inl ?_)
        have hc := List.head?_dropWhile_not (· != '/') reversed
        rw [hd] at hc
        simpa using hc

theorem IsFront.isAbsolute_eq {front path : String} (h : IsFront front.toList path.toList)
    (hne : front ≠ "") : isAbsolute front = isAbsolute path := by
  obtain ⟨rest, hrest⟩ := h.chars
  simp only [isAbsolute, ← hrest]
  cases hf : front.toList with
  | nil => exact absurd (by simpa using hf) hne
  | cons c s => rfl

namespace Component

def text? : Component → Option String
  | .up => some ".."
  | .name text => some text
  | _ => none

end Component

theorem text?_inner? (name : String) :
    (inner? name).bind Component.text? = if name = "." then none else some name := by
  unfold inner?
  split
  · rfl
  · split
    · next h => rw [h]; rfl
    · rfl

theorem filterMap_inner? (names : List String) :
    (names.filterMap inner?).filterMap Component.text? = names.filter (· ≠ ".") := by
  rw [List.filterMap_filterMap, ← List.filterMap_eq_filter]
  congr 1
  funext name
  rw [text?_inner?]
  by_cases h : name = "." <;> simp [Option.guard, h]

/-- The components of a path have its names, except for single dots. -/
theorem filterMap_components (path : String) :
    (components path).filterMap Component.text? = (names path).filter (· ≠ ".") := by
  unfold components
  simp only
  split
  · rw [List.filterMap_cons_none rfl, filterMap_inner?]
  · split
    · next rest h =>
        rw [List.filterMap_cons_none rfl, filterMap_inner?, h, List.filter_cons_of_neg (by simp)]
    · next h => exact filterMap_inner? _

theorem inner?_ne_root (name : String) : inner? name ≠ some .root := by
  unfold inner?
  split
  · simp
  · split <;> simp

theorem head?_components (path : String) :
    (components path).head? = some .root ↔ isAbsolute path := by
  unfold components
  simp only
  split
  · next h => simp [h]
  · next h =>
      refine iff_of_false ?_ h
      split
      · simp
      · intro hhead
        obtain ⟨name, -, hname⟩ := List.mem_filterMap.mp (List.mem_of_mem_head? hhead)
        exact inner?_ne_root name hname

/-- Paths with equal components start at the same place and differ only in single dots. -/
theorem of_components_eq {a b : String} (h : components a = components b) :
    isAbsolute a = isAbsolute b ∧ (names a).filter (· ≠ ".") = (names b).filter (· ≠ ".") := by
  constructor
  · rw [Bool.eq_iff_iff, ← head?_components, ← head?_components, h]
  · rw [← filterMap_components, ← filterMap_components, h]

end Path

end BuildMatrix
