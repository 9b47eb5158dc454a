import Mathlib.Data.List.Basic
import PackageStaging.Url.Percent

namespace PackageStaging.Percent

variable {keep : Char → Bool}

theorem decode_ofByte_append (b : UInt8) (rest : List Char) :
    decode (ofByte b ++ rest) = b :: decode rest := by
  have hb := b.toNat_lt
  have hhigh : b.toNat / 16 < 16 := by omega
  have hlow : b.toNat % 16 < 16 := by omega
  have hsum : b.toNat / 16 * 16 + b.toNat % 16 = b.toNat := by omega
  simp only [ofByte, List.cons_append, List.nil_append, decode,
    Text.hexValue?_upperHexDigit hhigh, Text.hexValue?_upperHexDigit hlow, hsum, UInt8.ofNat_toNat]

theorem decode_flatMap_ofByte_append (bytes : List UInt8) (rest : List Char) :
    decode (bytes.flatMap ofByte ++ rest) = bytes ++ decode rest := by
  induction bytes with
  | nil => rfl
  | cons b bytes ih =>
    rw [List.flatMap_cons, List.append_assoc, decode_ofByte_append, ih, List.cons_append]

theorem decode_cons_of_ne {c : Char} (hc : c ≠ '%') (rest : List Char) :
    decode (c :: rest) = String.utf8EncodeChar c ++ decode rest := by
  rw [decode]
  simp [hc]

theorem decode_ofChar_append (hkeep : keep '%' = false) (c : Char) (rest : List Char) :
    decode (ofChar keep c ++ rest) = String.utf8EncodeChar c ++ decode rest := by
  unfold ofChar
  split
  · rename_i hc
    refine decode_cons_of_ne ?_ rest
    rintro rfl
    simp [hkeep] at hc
  · exact decode_flatMap_ofByte_append _ rest

theorem decode_flatMap_ofChar (hkeep : keep '%' = false) (cs : List Char) :
    decode (cs.flatMap (ofChar keep)) = cs.flatMap String.utf8EncodeChar := by
  induction cs with
  | nil => rfl
  | cons c cs ih => rw [List.flatMap_cons, decode_ofChar_append hkeep, ih, List.flatMap_cons]

theorem decode_encode (hkeep : keep '%' = false) (s : String) :
    (decode (encode keep s).toList).toByteArray = s.toUTF8 := by
  rw [encode, String.toList_ofList, decode_flatMap_ofChar hkeep]
  have hs := String.toByteArray_ofList (l := s.toList)
  rw [String.ofList_toList] at hs
  exact hs.symm

theorem encode_injective (hkeep : keep '%' = false) : Function.Injective (encode keep) := by
  intro s t h
  rw [← String.toByteArray_inj]
  have hs := decode_encode hkeep s
  rw [h, decode_encode hkeep t] at hs
  exact hs.symm

/-- A character that stands for itself wherever it is, or begins an encoded byte. -/
def isPlain (c : Char) : Bool := isUnreserved c || c == '%'

theorem toNat_lt_of_isPlain {c : Char} (h : isPlain c) : c.toNat < 128 := by
  delta isPlain isUnreserved Char.isAlphanum Char.isAlpha Char.isUpper Char.isLower
    Char.isDigit at h
  simp only [ge_iff_le, UInt32.le_iff_toNat_le, Bool.or_eq_true, Bool.and_eq_true,
    decide_eq_true_eq, beq_iff_eq] at h
  rcases h with ((((((⟨-, h⟩ | ⟨-, h⟩) | ⟨-, h⟩) | rfl) | rfl) | rfl) | rfl) | rfl
  · exact Nat.lt_of_le_of_lt h (by decide)
  · exact Nat.lt_of_le_of_lt h (by decide)
  · exact Nat.lt_of_le_of_lt h (by decide)
  all_goals decide

theorem forall_isPlain {p : Char → Prop}
    (h : ∀ n < 128, isPlain (Char.ofNat n) → p (Char.ofNat n)) {c : Char} (hc : isPlain c) :
    p c := by
  have hp := h c.toNat (toNat_lt_of_isPlain hc)
  rw [Char.ofNat_toNat] at hp
  exact hp hc

theorem isPlain_of_mem_ofByte {b : UInt8} {c : Char} (h : c ∈ ofByte b) : isPlain c := by
  have hb := b.toNat_lt
  have hdigit : ∀ n < 16, isPlain (Text.upperHexDigit n) := by decide
  simp only [ofByte, List.mem_cons, List.not_mem_nil, or_false] at h
  rcases h with rfl | rfl | rfl
  · rfl
  · exact hdigit _ (by omega)
  · exact hdigit _ (by omega)

theorem isPlain_of_mem_encode {s : String} {c : Char} (h : c ∈ (encode isUnreserved s).toList) :
    isPlain c := by
  rw [encode, String.toList_ofList, List.mem_flatMap] at h
  obtain ⟨d, -, hc⟩ := h
  unfold ofChar at hc
  split at hc
  · rename_i hd
    obtain rfl := List.mem_singleton.1 hc
    rw [isPlain, hd, Bool.true_or]
  · obtain ⟨b, -, hb⟩ := List.mem_flatMap.1 hc
    exact isPlain_of_mem_ofByte hb

def unreserved : List Char :=
  "ABCDEFGHIJKLMNOPQRSTUVWXYZabcdefghijklmnopqrstuvwxyz0123456789-_.~".toList

def upperHexDigits : List Char := "0123456789ABCDEF".toList

/-- Unreserved characters and, for other bytes, percent signs with two upper-case digits each. -/
inductive IsEncoded : List Char → Prop
  | nil : IsEncoded []
  | plain {c : Char} {rest : List Char} (hc : c ∈ unreserved) (h : IsEncoded rest) :
      IsEncoded (c :: rest)
  | byte {a b : Char} {rest : List Char} (ha : a ∈ upperHexDigits) (hb : b ∈ upperHexDigits)
      (h : IsEncoded rest) : IsEncoded ('%' :: a :: b :: rest)

theorem mem_unreserved {c : Char} (h : isUnreserved c) : c ∈ unreserved := by
  have hplain : isPlain c := by rw [isPlain, h, Bool.true_or]
  exact forall_isPlain (p := fun c ↦ isUnreserved c → c ∈ unreserved) (by decide +kernel) hplain h

theorem IsEncoded.ofByte_append {rest : List Char} (h : IsEncoded rest) (b : UInt8) :
    IsEncoded (ofByte b ++ rest) := by
  have hb := b.toNat_lt
  have hdigit : ∀ n < 16, Text.upperHexDigit n ∈ upperHexDigits := by decide
  exact .byte (hdigit _ (by omega)) (hdigit _ (by omega)) h

theorem IsEncoded.ofChar_append {rest : List Char} (h : IsEncoded rest) (c : Char) :
    IsEncoded (ofChar isUnreserved c ++ rest) := by
  unfold ofChar
  split
  · rename_i hc
    exact .plain (mem_unreserved hc) h
  · induction String.utf8EncodeChar c with
    | nil => exact h
    | cons b bytes ih =>
      rw [List.flatMap_cons, List.append_assoc]
      exact ih.ofByte_append b

theorem isEncoded_encode (s : String) : IsEncoded (encode isUnreserved s).toList := by
  rw [encode, String.toList_ofList]
  induction s.toList with
  | nil => exact .nil
  | cons c cs ih =>
    rw [List.flatMap_cons]
    exact ih.ofChar_append c

theorem encode_ne_empty (hkeep : keep '%' = false) {s : String} (h : s ≠ "") :
    encode keep s ≠ "" := fun he ↦ h (encode_injective hkeep he)

theorem flatMap_ofChar_of_forall {cs : List Char} (h : ∀ c ∈ cs, keep c) :
    cs.flatMap (ofChar keep) = cs := by
  induction cs with
  | nil => rfl
  | cons c cs ih =>
    obtain ⟨hc, hcs⟩ := List.forall_mem_cons.1 h
    rw [List.flatMap_cons, ofChar, if_pos hc, ih hcs, List.singleton_append]

theorem keepInPath_of_isPlain {c : Char} (h : isPlain c) : keepInPath c :=
  forall_isPlain (p := fun c ↦ keepInPath c) (by decide) h

theorem keepInSpecialQuery_of_isPlain {c : Char} (h : isPlain c) : keepInSpecialQuery c :=
  forall_isPlain (p := fun c ↦ keepInSpecialQuery c) (by decide) h

end PackageStaging.Percent
