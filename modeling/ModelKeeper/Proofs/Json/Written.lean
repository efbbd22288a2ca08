import ModelKeeper.Proofs.Json.Restored
import ModelKeeper.Proofs.Json.Texts

/-!
# What is written is read

The text of a value is read as this value (`Draft.reads_bytes`), if its numbers are integers that
fit 64 bits.  So a codec that restores a value from JSON also restores it from the text of this
JSON (`Codec.readText_bytes`).
-/

namespace ModelKeeper

namespace Json

/-- Whether all numbers in a value are integers of at most 64 bits. -/
inductive IsIntegral : Json → Prop
  | null : IsIntegral .null
  | bool {b} : IsIntegral (.bool b)
  | int {n : Int} : -0x8000000000000000 ≤ n → n ≤ 0xFFFFFFFFFFFFFFFF → IsIntegral (.num (.int n))
  | str {s} : IsIntegral (.str s)
  | arr {items} : (∀ v ∈ items, IsIntegral v) → IsIntegral (.arr items)
  | obj {members : List (String × Json)} : (∀ m ∈ members, IsIntegral m.2) →
    IsIntegral (.obj members)

/-- The text of a value as bytes. -/
def bytes (v : Json) : List UInt8 := Utf8.ofString v.text

/-- A member as it is written. -/
def Member.written (name : String) (value : List UInt8) : Member :=
  ⟨[], Utf8.encode (name.toList.flatMap escape), [], value⟩

/-! ### The bytes of a value -/

theorem bytes_eq (v : Json) : v.bytes = Utf8.encode (characters v) := by
  rw [bytes, text, Utf8.ofString, String.toList_ofList]

theorem encode_quoted (s : String) :
    Utf8.encode (quoted s) = 0x22 :: (Utf8.encode (s.toList.flatMap escape) ++ [0x22]) := by
  rw [quoted, List.cons_append, Utf8.encode_cons, Utf8.encode_append]
  rfl

theorem encode_itemCharacters (items : List Json) :
    Utf8.encode (itemCharacters items) = further 0x5D (items.map bytes) := by
  induction items with
  | nil => rfl
  | cons v items ih =>
    rw [itemCharacters, List.cons_append, Utf8.encode_cons, Utf8.encode_append, ih, List.map_cons,
      further, bytes_eq]
    rfl

theorem bytes_arr (items : List Json) :
    (Json.arr items).bytes = 0x5B :: listed 0x5D (items.map bytes) := by
  rw [bytes_eq]
  cases items with
  | nil => rfl
  | cons v items =>
    rw [characters, List.cons_append, Utf8.encode_cons, Utf8.encode_append, encode_itemCharacters,
      List.map_cons, listed, bytes_eq]
    rfl

theorem encode_member (name : String) (v : Json) :
    Utf8.encode (quoted name) ++ 0x3A :: v.bytes = (Member.written name v.bytes).text := by
  rw [encode_quoted, Member.text, Member.written]
  simp

theorem encode_memberCharacters (members : List (String × Json)) :
    Utf8.encode (memberCharacters members) =
      further 0x7D (members.map fun m => (Member.written m.1 m.2.bytes).text) := by
  induction members with
  | nil => rfl
  | cons m members ih =>
    obtain ⟨name, v⟩ := m
    rw [memberCharacters, List.map_cons, further, ← encode_member, ← ih, bytes_eq]
    simp [Utf8.encode_cons]
    rfl

theorem bytes_obj (members : List (String × Json)) :
    (Json.obj members).bytes =
      0x7B :: listed 0x7D (members.map fun m => (Member.written m.1 m.2.bytes).text) := by
  rw [bytes_eq]
  cases members with
  | nil => rfl
  | cons m members =>
    obtain ⟨name, v⟩ := m
    rw [characters, List.map_cons, listed, ← encode_member, ← encode_memberCharacters, bytes_eq]
    simp [Utf8.encode_cons]
    rfl

end Json

/-! ### Reading it back -/

namespace Draft

open Json

theorem readsMember_written {value : List UInt8} {d : Draft} (h : Reads value d) (name : String) :
    ReadsMember (Member.written name value) (some name, d) where
  before := nofun
  behind := nofun
  name rest := by
    rw [Member.written, scanString_closed (spelling_escape _), String.ofList_toList]
  value := h

/-- **The text of a value is read as this value.** -/
theorem reads_bytes {v : Json} (h : v.IsIntegral) : Reads v.bytes (ofJson v) := by
  induction h with
  | null => exact reads_null
  | @bool b =>
    have hbytes : (Json.bool b).bytes = Utf8.ofString (if b then "true" else "false") := by
      cases b <;> rfl
    rw [hbytes]
    exact reads_bool b
  | @int n hlow hhigh =>
    obtain ⟨numeral, hspelling, hvalue⟩ := Number.exists_numeral hlow hhigh
    have hbytes : (Json.num (.int n)).bytes = Utf8.ofString (Number.int n).text := by
      rw [bytes_eq, characters, Utf8.ofString]
    rw [hbytes, ofJson, ← hvalue]
    exact reads_numeral hspelling
  | @str s =>
    -- the escaped text spells the characters that it was made from
    have hread := reads_string (spelling_escape s.toList)
    rwa [String.ofList_toList, ← encode_quoted, ← characters, ← bytes_eq] at hread
  | @arr items _ ih =>
    have hitems : List.Forall₂ Reads (items.map bytes) (items.map ofJson) :=
      List.forall₂_map_left_iff.2 (List.forall₂_map_right_iff.2 (List.forall₂_same.2 ih))
    rw [bytes_arr, ofJson, ofItems_eq_map]
    exact reads_array (List.forall_mem_nil _) hitems
  | @obj members _ ih =>
    have hmembers : List.Forall₂ ReadsMember (members.map fun m => .written m.1 m.2.bytes)
        (members.map fun m => (some m.1, ofJson m.2)) :=
      List.forall₂_map_left_iff.2 (List.forall₂_map_right_iff.2 (List.forall₂_same.2
        fun m hm => readsMember_written (ih m hm) m.1))
    have hread := reads_object (List.forall_mem_nil _) hmembers
    rw [List.map_map] at hread
    rw [bytes_obj, ofJson, ofMembers_eq_map]
    exact hread

end Draft

namespace Codec

variable {α : Type} {c : Codec α} {a : α}

theorem readText_of_reads {bs : List UInt8} {d : Draft} (h : Draft.Reads bs d)
    (hread : c.read d = .ok a) : c.readText bs = .ok a := by
  obtain ⟨rest, hbytes, hrest⟩ := Draft.ofBytes_of_reads h
  simp only [readText, hbytes, bind, Except.bind, hread, hrest, List.isEmpty_nil, if_true]
  rfl

/-- **What is restored from JSON is restored from its text.** -/
theorem readText_bytes (h : c.Restores a) (hintegral : (c.write a).IsIntegral) :
    c.readText (c.write a).bytes = .ok a :=
  readText_of_reads (Draft.reads_bytes hintegral) h.read

end Codec

end ModelKeeper
