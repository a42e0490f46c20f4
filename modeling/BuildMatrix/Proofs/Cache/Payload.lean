import BuildMatrix.Cache.Archive
import BuildMatrix.Proofs.Json.Quoted

/-!
# Payloads

An archive is read back from its payload. The parts of a payload are read one after the other, each
with as much fuel as it has bytes.
-/

namespace BuildMatrix

namespace Json.Source

def Ends (rest : Bytes) : Prop := ∀ b, rest.head? = some b → b = 0x2C ∨ b = 0x5D ∨ b = 0x7D

/-- Bytes that are read as a value, whatever comes after them. -/
structure Reads (bytes : Bytes) (source : Source) : Prop where
  first : ∃ b tail, bytes = b :: tail ∧ isSpace b = false ∧ b ≠ 0x5D
  value : ∀ fuel rest, bytes.length ≤ fuel → Ends rest →
    value? fuel (bytes ++ rest) = some (source, rest)

theorem skipSpace_cons {b : UInt8} (h : isSpace b = false) (rest : Bytes) :
    skipSpace (b :: rest) = b :: rest := by
  rw [skipSpace, List.dropWhile_cons_of_neg (by simp [h])]

theorem reads_text (s : String) :
    Reads (Utf8.encode (quoted s)) (.text (escapedBytes s.toList)) where
  first := by
    rw [encode_quoted]
    exact ⟨_, _, rfl, rfl, by decide⟩
  value fuel rest hfuel _ := by
    rw [encode_quoted] at hfuel ⊢
    cases fuel with
    | zero => cases hfuel
    | succ fuel =>
        have hbody := textBody?_escapedBytes s.toList rest
        rw [List.cons_append, List.append_assoc, List.singleton_append, value?,
          skipSpace_cons rfl]
        simp [hbody]

/-- The digits of a number that is written without sign, point and exponent. -/
structure IsNumeral (digits : Bytes) : Prop where
  nonempty : digits ≠ []
  all : ∀ b ∈ digits, isDigitByte b
  leading : digits.head? = some 0x30 → digits.length ≤ 1

theorem ne_of_isDigitByte {b c : UInt8} (hb : isDigitByte b) (hc : isDigitByte c = false) :
    b ≠ c := by
  rintro rfl
  rw [hb] at hc
  cases hc

theorem Ends.not_digit {rest : Bytes} (h : Ends rest) : rest.head?.all (!isDigitByte ·) := by
  cases rest with
  | nil => rfl
  | cons b rest =>
      rcases h b rfl with rfl | rfl | rfl
      · rfl
      · rfl
      · rfl

theorem digits?_append {digits rest : Bytes} (h : IsNumeral digits) (hrest : Ends rest) :
    digits? (digits ++ rest) = some (digits, rest) := by
  have hnone : rest.takeWhile isDigitByte = [] ∧ rest.dropWhile isDigitByte = rest := by
    have hdigit := hrest.not_digit
    cases rest with
    | nil => exact ⟨rfl, rfl⟩
    | cons b rest =>
        have hb : isDigitByte b = false := by simpa using hdigit
        exact ⟨List.takeWhile_cons_of_neg (by simp [hb]), List.dropWhile_cons_of_neg (by simp [hb])⟩
  rw [digits?, List.takeWhile_append_of_pos h.all, List.dropWhile_append_of_pos h.all, hnone.1,
    hnone.2, List.append_nil]
  cases digits with
  | nil => exact absurd rfl h.nonempty
  | cons b tail => rfl

theorem number?_append {digits rest : Bytes} (h : IsNumeral digits) (hrest : Ends rest) :
    number? (digits ++ rest) = some (digits, rest) := by
  have hwhole : whole? (digits ++ rest) = some (digits, rest) := by
    have hleading : ¬(digits.head? = some 0x30 ∧ 1 < digits.length) := by
      rintro ⟨hhead, hlength⟩
      have hone := h.leading hhead
      omega
    simp [whole?, digits?_append h hrest, hleading]
  have hfraction : fraction? rest = some ([], rest) := by
    cases rest with
    | nil => rfl
    | cons b rest => rcases hrest b rfl with rfl | rfl | rfl <;> rfl
  have hpower : power? rest = some ([], rest) := by
    cases rest with
    | nil => rfl
    | cons b rest => rcases hrest b rfl with rfl | rfl | rfl <;> rfl
  have hsign (s : Bytes) : digits ++ rest ≠ 0x2D :: s := by
    cases digits with
    | nil => exact absurd rfl h.nonempty
    | cons b tail =>
        intro heq
        exact ne_of_isDigitByte (h.all b List.mem_cons_self) rfl (List.cons.inj heq).1
  rw [number?.eq_2 _ hsign]
  simp [hwhole, hfraction, hpower]

theorem reads_number {digits : Bytes} (h : IsNumeral digits) : Reads digits (.number digits) := by
  have hnumber {rest : Bytes} (hrest : Ends rest) := number?_append h hrest
  cases digits with
  | nil => exact absurd rfl h.nonempty
  | cons b tail =>
      have hb := h.all b List.mem_cons_self
      have hne {c : UInt8} (hc : isDigitByte c = false) : b ≠ c := ne_of_isDigitByte hb hc
      have hspace : isSpace b = false := by
        simp [isSpace, hne (c := 0x20) rfl, hne (c := 0x0A) rfl, hne (c := 0x0D) rfl,
          hne (c := 0x09) rfl]
      refine ⟨⟨b, tail, rfl, hspace, hne rfl⟩, fun fuel rest hfuel hrest => ?_⟩
      cases fuel with
      | zero => cases hfuel
      | succ fuel =>
          have hread := hnumber hrest
          have h22 : b ≠ 0x22 := hne rfl
          have h5B : b ≠ 0x5B := hne rfl
          have h7B : b ≠ 0x7B := hne rfl
          have h6E : b ≠ 0x6E := hne rfl
          have h74 : b ≠ 0x74 := hne rfl
          have h66 : b ≠ 0x66 := hne rfl
          rw [List.cons_append] at hread ⊢
          rw [value?, skipSpace_cons hspace]
          simp [h6E, h74, h66, hread]

section
variable {α : Type} {encode : α → Bytes} {source : α → Source}

theorem ends_comma (rest : Bytes) : Ends (0x2C :: rest) := by
  rintro b ⟨⟩
  exact .inl rfl

theorem ends_bracket (rest : Bytes) : Ends (0x5D :: rest) := by
  rintro b ⟨⟩
  exact .inr (.inl rfl)

theorem ends_brace (rest : Bytes) : Ends (0x7D :: rest) := by
  rintro b ⟨⟩
  exact .inr (.inr rfl)

/-- Items are read up to the bracket. -/
theorem items?_commaSeparated {items : List α} (hne : items ≠ [])
    (h : ∀ item ∈ items, Reads (encode item) (source item)) {fuel : Nat}
    (hfuel : (Archive.commaSeparated (items.map encode)).length < fuel) (rest : Bytes) :
    items? fuel (Archive.commaSeparated (items.map encode) ++ 0x5D :: rest) =
      some (items.map source, rest) := by
  induction items generalizing fuel with
  | nil => exact absurd rfl hne
  | cons item items ih =>
      have hitem := h item List.mem_cons_self
      cases fuel with
      | zero => cases hfuel
      | succ fuel =>
          cases items with
          | nil =>
              simp only [List.map_cons, List.map_nil, Archive.commaSeparated] at hfuel ⊢
              have hvalue := hitem.value fuel (0x5D :: rest) (Nat.le_of_lt_succ hfuel)
                (ends_bracket rest)
              have hspace : skipSpace (0x5D :: rest) = 0x5D :: rest := skipSpace_cons rfl rest
              simp [items?, hvalue, hspace]
          | cons next items =>
              have hmore : Archive.commaSeparated ((item :: next :: items).map encode) =
                  encode item ++ 0x2C :: Archive.commaSeparated ((next :: items).map encode) := rfl
              rw [hmore, List.length_append, List.length_cons] at hfuel
              have hlt : (Archive.commaSeparated ((next :: items).map encode)).length < fuel := by
                omega
              have hrest := ih (by simp) (fun i hi => h i (List.mem_cons_of_mem _ hi)) hlt
              have hvalue := hitem.value fuel (0x2C ::
                (Archive.commaSeparated ((next :: items).map encode) ++ 0x5D :: rest)) (by omega)
                (ends_comma _)
              have hspace (s : Bytes) : skipSpace (0x2C :: s) = 0x2C :: s := skipSpace_cons rfl s
              rw [hmore, List.append_assoc, List.cons_append, List.map_cons (f := source)]
              generalize Archive.commaSeparated ((next :: items).map encode) = more at hrest hvalue ⊢
              generalize (next :: items).map source = sources at hrest ⊢
              simp [items?, hvalue, hspace, hrest]

theorem commaSeparated_first {part tail : Bytes} {b : UInt8} (h : part = b :: tail)
    (parts : List Bytes) : ∃ tail', Archive.commaSeparated (part :: parts) = b :: tail' := by
  subst h
  cases parts with
  | nil => exact ⟨tail, rfl⟩
  | cons next parts => exact ⟨_, rfl⟩

theorem reads_array {items : List α} (h : ∀ item ∈ items, Reads (encode item) (source item)) :
    Reads (0x5B :: (Archive.commaSeparated (items.map encode) ++ [0x5D]))
      (.array (items.map source)) where
  first := ⟨_, _, rfl, rfl, by decide⟩
  value fuel rest hfuel _ := by
    have hspace (s : Bytes) : skipSpace (0x5B :: s) = 0x5B :: s := skipSpace_cons rfl s
    cases fuel with
    | zero => cases hfuel
    | succ fuel =>
        cases items with
        | nil =>
            have hend : skipSpace (0x5D :: rest) = 0x5D :: rest := skipSpace_cons rfl rest
            simp [value?, hspace, hend, Archive.commaSeparated]
        | cons item items =>
            have hlength : (Archive.commaSeparated ((item :: items).map encode)).length < fuel := by
              simp only [List.length_cons, List.length_append, List.length_nil] at hfuel
              omega
            have hitems := items?_commaSeparated (List.cons_ne_nil item items) h hlength rest
            obtain ⟨b, tail, hbytes, hfirst, hb⟩ := (h item List.mem_cons_self).first
            obtain ⟨tail, hstart⟩ := commaSeparated_first hbytes (items.map encode)
            rw [← List.map_cons (f := encode)] at hstart
            have hinner (s : Bytes) : skipSpace (b :: s) = b :: s := skipSpace_cons hfirst s
            rw [hstart, List.cons_append] at hitems
            rw [hstart, List.cons_append, List.cons_append, List.cons_append, List.append_assoc,
              List.singleton_append]
            simp [value?, hspace, hinner, hb, hitems]

end

/-- A member of an object: its name, its value as it is written, and the value as it is read. -/
structure Member where
  name : String
  bytes : Bytes
  source : Source

def Member.encode (m : Member) : Bytes := Utf8.encode (quoted m.name) ++ 0x3A :: m.bytes

def Member.read (m : Member) : Bytes × Source := (escapedBytes m.name.toList, m.source)

theorem members?_commaSeparated {members : List Member} (hne : members ≠ [])
    (h : ∀ m ∈ members, Reads m.bytes m.source) {fuel : Nat}
    (hfuel : (Archive.commaSeparated (members.map Member.encode)).length < fuel) (rest : Bytes) :
    members? fuel (Archive.commaSeparated (members.map Member.encode) ++ 0x7D :: rest) =
      some (members.map Member.read, rest) := by
  have hquote (s : Bytes) : skipSpace (0x22 :: s) = 0x22 :: s := skipSpace_cons rfl s
  have hcolon (s : Bytes) : skipSpace (0x3A :: s) = 0x3A :: s := skipSpace_cons rfl s
  have hcomma (s : Bytes) : skipSpace (0x2C :: s) = 0x2C :: s := skipSpace_cons rfl s
  have hbrace (s : Bytes) : skipSpace (0x7D :: s) = 0x7D :: s := skipSpace_cons rfl s
  have hencode (m : Member) (s : Bytes) : m.encode ++ s =
      0x22 :: (escapedBytes m.name.toList ++ 0x22 :: 0x3A :: (m.bytes ++ s)) := by
    rw [Member.encode, encode_quoted]
    simp
  induction members generalizing fuel with
  | nil => exact absurd rfl hne
  | cons m members ih =>
      have hm := h m List.mem_cons_self
      have hname (s : Bytes) := textBody?_escapedBytes m.name.toList s
      cases fuel with
      | zero => cases hfuel
      | succ fuel =>
          cases members with
          | nil =>
              have hlength : (Archive.commaSeparated ([m].map Member.encode)).length =
                  (Utf8.encode (quoted m.name)).length + (m.bytes.length + 1) :=
                List.length_append
              have hvalue := hm.value fuel (0x7D :: rest) (by omega) (ends_brace rest)
              rw [List.map_cons, List.map_nil, Archive.commaSeparated, hencode]
              simp [members?, hquote, hcolon, hbrace, hname, hvalue, Member.read]
          | cons next members =>
              have hmore : Archive.commaSeparated ((m :: next :: members).map Member.encode) =
                  m.encode ++ 0x2C ::
                    Archive.commaSeparated ((next :: members).map Member.encode) := rfl
              have hlength : m.encode.length =
                  (Utf8.encode (quoted m.name)).length + (m.bytes.length + 1) :=
                List.length_append
              rw [hmore, List.length_append, List.length_cons] at hfuel
              have hlt : (Archive.commaSeparated ((next :: members).map Member.encode)).length <
                  fuel := by
                omega
              have hrest := ih (by simp) (fun i hi => h i (List.mem_cons_of_mem _ hi)) hlt
              have hvalue := hm.value fuel (0x2C ::
                (Archive.commaSeparated ((next :: members).map Member.encode) ++ 0x7D :: rest))
                (by omega) (ends_comma _)
              rw [hmore, List.append_assoc, hencode, List.cons_append,
                List.map_cons (f := Member.read)]
              generalize Archive.commaSeparated ((next :: members).map Member.encode) = more
                at hrest hvalue ⊢
              generalize (next :: members).map Member.read = sources at hrest ⊢
              simp [members?, hquote, hcolon, hcomma, hname, hvalue, hrest, Member.read]

theorem reads_object {members : List Member} (hne : members ≠ [])
    (h : ∀ m ∈ members, Reads m.bytes m.source) :
    Reads (0x7B :: (Archive.commaSeparated (members.map Member.encode) ++ [0x7D]))
      (.object (members.map Member.read)) where
  first := ⟨_, _, rfl, rfl, by decide⟩
  value fuel rest hfuel _ := by
    have hspace (s : Bytes) : skipSpace (0x7B :: s) = 0x7B :: s := skipSpace_cons rfl s
    have hquote (s : Bytes) : skipSpace (0x22 :: s) = 0x22 :: s := skipSpace_cons rfl s
    cases fuel with
    | zero => cases hfuel
    | succ fuel =>
        have hlength : (Archive.commaSeparated (members.map Member.encode)).length < fuel := by
          simp only [List.length_cons, List.length_append, List.length_nil] at hfuel
          omega
        have hmembers := members?_commaSeparated hne h hlength rest
        obtain ⟨tail, hstart⟩ : ∃ tail,
            Archive.commaSeparated (members.map Member.encode) = 0x22 :: tail := by
          cases members with
          | nil => exact absurd rfl hne
          | cons m members =>
              have hm : m.encode = 0x22 ::
                  ((escapedBytes m.name.toList ++ [0x22]) ++ 0x3A :: m.bytes) := by
                rw [Member.encode, encode_quoted, List.cons_append]
              exact commaSeparated_first hm _
        rw [hstart, List.cons_append] at hmembers
        rw [hstart, List.cons_append, List.cons_append, List.cons_append, List.append_assoc,
          List.singleton_append]
        simp [value?, hspace, hquote, hmembers]

theorem read?_of_reads {bytes : Bytes} {source : Source} (h : Reads bytes source) :
    read? bytes = some source := by
  have hvalue := h.value (2 * bytes.length + 2) [] (by omega) (by rintro b ⟨⟩)
  rw [List.append_nil] at hvalue
  simp [read?, hvalue, skipSpace]

end Json.Source

namespace Archive

open Json Json.Source

theorem isNumeral_byte : ∀ n < 256, IsNumeral (ascii (toString n)) ∧
    byte? (.number (ascii (toString n))) = some (UInt8.ofNat n) := by
  have hall : ∀ n < 256, (ascii (toString n) ≠ [] ∧ (ascii (toString n)).all isDigitByte ∧
      ((ascii (toString n)).head? = some 0x30 → (ascii (toString n)).length ≤ 1)) ∧
      byte? (.number (ascii (toString n))) = some (UInt8.ofNat n) := by
    decide +kernel
  intro n hn
  obtain ⟨⟨hne, hdigits, hleading⟩, hbyte⟩ := hall n hn
  exact ⟨⟨hne, List.all_eq_true.mp hdigits, hleading⟩, hbyte⟩

def members (file : ArchivedFile) : List Member :=
  [⟨"path", Utf8.encode (quoted file.path), .text (escapedBytes file.path.toList)⟩,
    ⟨"contents",
      0x5B :: (commaSeparated (file.contents.map fun b => ascii (toString b.toNat)) ++ [0x5D]),
      .array (file.contents.map fun b => .number (ascii (toString b.toNat)))⟩]

theorem encodeFile_eq (file : ArchivedFile) : encodeFile file =
    0x7B :: (commaSeparated ((members file).map Member.encode) ++ [0x7D]) := by
  have hpath : ascii "\x7b\"path\":" = 0x7B :: (Utf8.encode (quoted "path") ++ [0x3A]) := by
    decide +kernel
  have hcontents : ascii ",\"contents\":[" =
      0x2C :: (Utf8.encode (quoted "contents") ++ [0x3A, 0x5B]) := by
    decide +kernel
  have hend : ascii "]\x7d" = [0x5D, 0x7D] := by
    decide +kernel
  rw [encodeFile, hpath, hcontents, hend]
  simp [members, commaSeparated, Member.encode]

theorem reads_file (file : ArchivedFile) :
    Reads (encodeFile file) (.object ((members file).map Member.read)) := by
  rw [encodeFile_eq]
  refine reads_object (by simp [members]) fun m hm => ?_
  simp only [members, List.mem_cons, List.not_mem_nil, or_false] at hm
  rcases hm with rfl | rfl
  · exact reads_text file.path
  · refine reads_array fun b _ => reads_number ?_
    exact (isNumeral_byte b.toNat b.toNat_lt).1

theorem mapM_map_some {α β γ : Type} {f : β → Option γ} {g : α → β} {h : α → γ} (items : List α)
    (hf : ∀ item ∈ items, f (g item) = some (h item)) :
    (items.map g).mapM f = some (items.map h) := by
  induction items with
  | nil => rfl
  | cons item items ih =>
      have hrest := ih fun i hi => hf i (List.mem_cons_of_mem _ hi)
      rw [List.map_cons, List.mapM_cons, hf item List.mem_cons_self, hrest]
      rfl

/-- The value of the only member of a name. -/
theorem field?_read {ms : List Member} {m : Member} (before after : List Member)
    (hm : ms = before ++ m :: after) (hbefore : ∀ other ∈ before, other.name ≠ m.name)
    (hafter : ∀ other ∈ after, other.name ≠ m.name) :
    field? m.name (ms.map Member.read) = some m.source := by
  have hnamed : (ms.map Member.read).mapM (fun m => (decodeText? m.1).map (·, m.2)) =
      some (ms.map fun m => (m.name, m.source)) :=
    mapM_map_some ms fun m _ => by rw [Member.read, decodeText?_escapedBytes, Option.map_some]
  have hnone {others : List Member} (h : ∀ other ∈ others, other.name ≠ m.name) :
      (others.map fun m => (m.name, m.source)).filter (fun p => p.1 == m.name) = [] := by
    rw [List.filter_eq_nil_iff]
    intro p hp
    obtain ⟨other, hother, rfl⟩ := List.mem_map.mp hp
    simpa using h other hother
  have honly : (ms.map fun m => (m.name, m.source)).filter (fun p => p.1 == m.name) =
      [(m.name, m.source)] := by
    rw [hm, List.map_append, List.map_cons, List.filter_append,
      List.filter_cons_of_pos (by simp), hnone hbefore, hnone hafter, List.nil_append]
  rw [field?, hnamed]
  simp [honly]

theorem readFile?_read (file : ArchivedFile) :
    readFile? (.object ((members file).map Member.read)) = some file := by
  have hpath : field? "path" ((members file).map Member.read) =
      some (.text (escapedBytes file.path.toList)) :=
    field?_read [] _ rfl (by simp) (by simp)
  have hcontents : field? "contents" ((members file).map Member.read) =
      some (.array (file.contents.map fun b => .number (ascii (toString b.toNat)))) :=
    field?_read [_] [] rfl (by simp) (by simp)
  have hbytes : (file.contents.map fun b => Source.number (ascii (toString b.toNat))).mapM byte? =
      some file.contents := by
    have hall := mapM_map_some (f := byte?) (h := id) file.contents fun b _ => by
      rw [(isNumeral_byte b.toNat b.toNat_lt).2, UInt8.ofNat_toNat]
      rfl
    rwa [List.map_id] at hall
  generalize (file.contents.map fun b => Source.number (ascii (toString b.toNat))) = digits
    at hcontents hbytes
  rw [readFile?]
  simp [hpath, hcontents, fileOfParts?, decodeText?_escapedBytes, hbytes]

def filesMember (archive : Archive) : Member :=
  ⟨"files", 0x5B :: (commaSeparated (archive.files.map encodeFile) ++ [0x5D]),
    .array (archive.files.map fun file => .object ((members file).map Member.read))⟩

theorem encode_eq (archive : Archive) : archive.encode =
    0x7B :: (commaSeparated ([filesMember archive].map Member.encode) ++ [0x7D]) := by
  have hfiles : ascii "\x7b\"files\":[" =
      0x7B :: (Utf8.encode (quoted "files") ++ [0x3A, 0x5B]) := by
    decide +kernel
  have hend : ascii "]\x7d" = [0x5D, 0x7D] := by
    decide +kernel
  rw [encode, hfiles, hend]
  simp [commaSeparated, Member.encode, filesMember]

theorem encode_ne_nil (archive : Archive) : archive.encode ≠ [] := by
  rw [encode_eq]
  exact List.cons_ne_nil _ _

/-- An archive is read back from its payload. -/
theorem decode?_encode (archive : Archive) : decode? archive.encode = some archive := by
  have hread : Source.read? archive.encode =
      some (.object ([filesMember archive].map Member.read)) := by
    rw [encode_eq]
    refine read?_of_reads (reads_object (by simp) fun m hm => ?_)
    rw [List.mem_singleton.mp hm]
    exact reads_array fun file _ => reads_file file
  have hfield : field? "files" ([filesMember archive].map Member.read) =
      some (filesMember archive).source :=
    field?_read [] [] rfl (by simp) (by simp)
  have hfiles : readFiles? (filesMember archive).source = some archive := by
    have hall := mapM_map_some (h := id) archive.files fun file _ => readFile?_read file
    rw [List.map_id] at hall
    rw [filesMember, readFiles?, hall, Option.map_some]
  generalize [filesMember archive].map Member.read = read at hread hfield
  rw [decode?, hread]
  simp [hfield, hfiles]

end Archive

end BuildMatrix
