import BuildMatrix.Json.Record
import Mathlib.Data.List.Forall2

/-!
# Records and variants are read back

The members of an object have no order: two values are the same if they differ only in the order of
members. A reader reads a value back if it takes each value that is the same as the written one.
-/

namespace BuildMatrix.Json

mutual

/-- The values differ only in the order of members. -/
inductive Same : Json → Json → Prop
  | refl (j : Json) : Same j j
  | array {items items' : List Json} : SameItems items items' → Same (array items) (array items')
  | object {members members' shuffled : List (String × Json)} :
    SameMembers members members' → members'.Perm shuffled → Same (object members) (object shuffled)

inductive SameItems : List Json → List Json → Prop
  | nil : SameItems [] []
  | cons {item item' : Json} {items items' : List Json} :
    Same item item' → SameItems items items' → SameItems (item :: items) (item' :: items')

inductive SameMembers : List (String × Json) → List (String × Json) → Prop
  | nil : SameMembers [] []
  | cons {name : String} {value value' : Json} {members members' : List (String × Json)} :
    Same value value' → SameMembers members members' →
      SameMembers ((name, value) :: members) ((name, value') :: members')

end

theorem SameItems.refl (items : List Json) : SameItems items items := by
  induction items with
  | nil => exact .nil
  | cons item items ih => exact .cons (.refl item) ih

theorem SameMembers.refl (members : List (String × Json)) : SameMembers members members := by
  induction members with
  | nil => exact .nil
  | cons member members ih => exact .cons (.refl member.2) ih

theorem SameMembers.names_eq {members members' : List (String × Json)}
    (h : SameMembers members members') : members'.map (·.1) = members.map (·.1) := by
  induction members generalizing members' with
  | nil => cases h; rfl
  | cons member members ih =>
    cases h with
    | cons _ hmembers => rw [List.map_cons, List.map_cons, ih hmembers]

theorem SameMembers.values {members members' : List (String × Json)}
    (h : SameMembers members members') : SameItems (members.map (·.2)) (members'.map (·.2)) := by
  induction members generalizing members' with
  | nil => cases h; exact .nil
  | cons member members ih =>
    cases h with
    | cons hvalue hmembers => exact .cons hvalue (ih hmembers)

theorem Same.items {items : List Json} {j : Json} (h : Same (.array items) j) :
    ∃ items', j = .array items' ∧ SameItems items items' := by
  cases h with
  | refl => exact ⟨items, rfl, .refl items⟩
  | array hitems => exact ⟨_, rfl, hitems⟩

theorem Same.members {members : List (String × Json)} {j : Json} (h : Same (.object members) j) :
    ∃ members' shuffled, j = .object shuffled ∧ SameMembers members members' ∧
      members'.Perm shuffled := by
  cases h with
  | refl => exact ⟨members, members, rfl, .refl members, .refl members⟩
  | object hmembers hperm => exact ⟨_, _, rfl, hmembers, hperm⟩

/-- The reader takes each value that is the same as the written one, for the value it stands for. -/
def Reads {α : Type} (read? : Json → Option α) (written : Json) (a : α) : Prop :=
  ∀ j, Same written j → read? j = some a

section Reads

variable {α : Type} {read? : Json → Option α} {written : Json} {a : α}

theorem Reads.self (h : Reads read? written a) : read? written = some a := h written (.refl written)

theorem reads_string {s : String} (h : read? (string s) = some a) : Reads read? (string s) a := by
  intro j hj
  cases hj
  exact h

theorem reads_integer {n : Int} (h : read? (integer n) = some a) : Reads read? (integer n) a := by
  intro j hj
  cases hj
  exact h

end Reads

theorem reads_text (s : String) : Reads text? (string s) s := reads_string rfl

theorem reads_int32 (n : Int32) : Reads int32? (integer n.toInt) n := by
  have hbounds : (-2147483648 ≤ n.toInt && n.toInt ≤ 2147483647) = true := by
    simpa using And.intro n.le_toInt (Int.lt_add_one_iff.mp n.toInt_lt)
  refine reads_integer ?_
  rw [int32?, if_pos hbounds, Int32.ofInt_toInt]

theorem reads_uint64 (n : UInt64) : Reads uint64? (integer n.toNat) n := by
  have hbounds : (0 ≤ (n.toNat : Int) && (n.toNat : Int) ≤ 18446744073709551615) = true := by
    have hlt := n.toNat_lt
    simp only [Bool.and_eq_true, decide_eq_true_eq]
    omega
  refine reads_integer ?_
  rw [uint64?, if_pos hbounds, Int.toNat_natCast, UInt64.ofNat_toNat]

theorem reads_list {α : Type} {item? : Json → Option α} {write : α → Json} {as : List α}
    (h : ∀ a ∈ as, Reads item? (write a) a) : Reads (list? item?) (array (as.map write)) as := by
  intro j hj
  obtain ⟨items, rfl, hitems⟩ := hj.items
  rw [list?]
  clear hj
  induction as generalizing items with
  | nil => cases hitems; rfl
  | cons a as ih =>
    cases hitems with
    | cons hitem hitems =>
      have hrest := ih (fun b hb => h b (List.mem_cons_of_mem a hb)) _ hitems
      rw [List.mapM_cons, h a List.mem_cons_self _ hitem, hrest]
      rfl

theorem reads_textPair (pair : String × String) : Reads textPair? (ofTextPair pair) pair := by
  intro j hj
  obtain ⟨items, rfl, hitems⟩ := hj.items
  match items, hitems with
  | [_, _], .cons hfirst (.cons hsecond .nil) =>
    cases hfirst
    cases hsecond
    rfl

/-- There are values, each the same as the written one in its place, of which `p` holds. -/
def ExistsSame : (written : List Json) → (p : List Json → Prop) → Prop
  | [], p => p []
  | item :: items, p => ∃ j, Same item j ∧ ExistsSame items fun js => p (j :: js)

theorem SameItems.existsSame {items items' : List Json} (h : SameItems items items')
    {p : List Json → Prop} (hp : p items') : ExistsSame items p := by
  induction items generalizing items' p with
  | nil => cases h; exact hp
  | cons item items ih =>
    cases h with
    | cons hitem hitems => exact ⟨_, hitem, ih hitems hp⟩

/-! ### Fields -/

/-- A field is read if it has one of the values that are the same as the written one. -/
def ReadsField {α : Type} (read? : Option Json → Option α) (written : Json) (a : α) : Prop :=
  Reads (fun j => read? (some j)) written a

section Field

variable {α : Type} {read? : Json → Option α}

theorem Reads.required {written : Json} {a : α} (h : Reads read? written a) :
    ReadsField (required? read?) written a := h

/-- An optional field is null or has a value; null stands for no value. -/
theorem Reads.optional {write : α → Json} (hnull : read? null = none) {value : Option α}
    (h : ∀ a ∈ value, Reads read? (write a) a) :
    ReadsField (optional? read?) (ofOption write value) value := by
  intro j hj
  cases value with
  | none =>
    cases hj
    rfl
  | some a =>
    have hread : read? j = some a := h a rfl j hj
    cases j with
    | null => rw [hnull] at hread; cases hread
    | _ => simp only [optional?, hread, Option.map_some]

end Field

theorem member?_of_mem {members : List (String × Json)} (hnames : (members.map (·.1)).Nodup)
    {name : String} {value : Json} (hmem : (name, value) ∈ members) :
    (object members).member? name = some value := by
  have hfind : members.find? (fun m => m.1 == name) = some (name, value) := by
    induction members with
    | nil => cases hmem
    | cons member members ih =>
      rw [List.map_cons, List.nodup_cons] at hnames
      rcases List.mem_cons.mp hmem with rfl | hmem
      · exact List.find?_cons_of_pos (beq_self_eq_true name)
      · have hne : member.1 ≠ name := fun heq => hnames.1 (heq ▸ List.mem_map_of_mem hmem)
        rw [List.find?_cons_of_neg (by simpa using hne), ih hnames.2 hmem]
  rw [member?, hfind, Option.map_some]

theorem Same.fields {members : List (String × Json)} {j : Json} (h : Same (.object members) j)
    (names : List String) (hmembers : members.map (·.1) = names) (hnames : names.Nodup) :
    ExistsSame (members.map (·.2)) fun values =>
      fields? names j = some (values.map some) ∧ members? names j = some (values.map some) := by
  obtain ⟨written, shuffled, rfl, hsame, hperm⟩ := h.members
  have hwritten : written.map (·.1) = names := hsame.names_eq.trans hmembers
  have hnames' : (shuffled.map (·.1)).Nodup := (hperm.map _).nodup_iff.mp (hwritten ▸ hnames)
  have hfields : fields? names (.object shuffled) = some ((written.map (·.2)).map some) := by
    rw [fields?, ← hwritten, List.map_map, List.map_map]
    refine congrArg some (List.map_congr_left fun member hmem => ?_)
    exact member?_of_mem hnames' (hperm.mem_iff.mp hmem)
  exact hsame.values.existsSame ⟨hfields, hfields⟩

/-- The tag of a record is found by its name, and the fields in the rest of the record. -/
theorem Same.tagged {tagName tag : String} {members : List (String × Json)} {j : Json}
    (h : Same (.object ((tagName, .string tag) :: members)) j)
    (names : List String) (hmembers : members.map (·.1) = names)
    (hnames : (tagName :: names).Nodup) :
    ∃ rest, tagged? tagName j = some (tag, rest) ∧
      ExistsSame (members.map (·.2)) fun values =>
        fields? names rest = some (values.map some) ∧
          members? names rest = some (values.map some) := by
  obtain ⟨written, shuffled, rfl, hsame, hperm⟩ := h.members
  match written, hsame with
  | (_, _) :: fields, .cons htag hfields =>
    cases htag
    have hwritten : fields.map (·.1) = names := hfields.names_eq.trans hmembers
    have hnames' : (shuffled.map (·.1)).Nodup := by
      refine (hperm.map _).nodup_iff.mp ?_
      rw [List.map_cons, hwritten]
      exact hnames
    have hfiltered : fields.filter (fun m => m.1 != tagName) = fields := by
      refine List.filter_eq_self.mpr fun member hmem => bne_iff_ne.mpr fun heq => ?_
      refine (List.nodup_cons.mp hnames).1 ?_
      rw [← hwritten, ← heq]
      exact List.mem_map_of_mem hmem
    have hrest : fields.Perm (shuffled.filter fun m => m.1 != tagName) := by
      have hfilter := hperm.filter fun m => m.1 != tagName
      rwa [List.filter_cons_of_neg (by simp), hfiltered] at hfilter
    refine ⟨_, ?_, (Same.object hfields hrest).fields names hmembers (List.nodup_cons.mp hnames).2⟩
    rw [tagged?, member?_of_mem hnames' (hperm.mem_iff.mp List.mem_cons_self)]
    rfl

theorem Same.variant {name : String} {payload j : Json} (h : Same (ofVariant name payload) j) :
    ∃ payload', variant? j = some (name, some payload') ∧ Same payload payload' := by
  obtain ⟨written, shuffled, rfl, hsame, hperm⟩ := h.members
  match written, hsame with
  | [(_, payload')], .cons hpayload .nil =>
    obtain rfl := List.singleton_perm.mp hperm
    exact ⟨payload', rfl, hpayload⟩

end BuildMatrix.Json
