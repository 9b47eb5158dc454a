import PackageStaging.Json.Fault

namespace PackageStaging.Json

/-- What stands for a byte that belongs to no character: the escape of half a surrogate pair, which
a text may hold only when it is skipped. The mark in front of it is no space, ends no escape, and
keeps the half from completing a pair. -/
def strayByte : Input := ['?', '\\', 'u', 'd', 'c', '0', '0']

def inputFrom (bytes : ByteArray) (i : Nat) : Input :=
  if i < bytes.size then
    match bytes.utf8DecodeChar? i with
    | some c => c :: inputFrom bytes (i + c.utf8Size)
    | none => strayByte ++ inputFrom bytes (i + 1)
  else []
termination_by bytes.size - i
decreasing_by
  · have := c.utf8Size_pos
    omega
  · omega

def ofBytes (bytes : ByteArray) : String := String.ofList (inputFrom bytes 0)

theorem utf8DecodeChar?_size_append (before : ByteArray) (c : Char) (cs : List Char) :
    (before ++ (c :: cs).utf8Encode).utf8DecodeChar? before.size = some c := by
  rw [ByteArray.utf8DecodeChar?_eq_utf8DecodeChar?_extract,
    ByteArray.extract_append_eq_right rfl ByteArray.size_append,
    List.utf8DecodeChar?_utf8Encode_cons]

theorem inputFrom_append (before : ByteArray) (cs : List Char) :
    inputFrom (before ++ cs.utf8Encode) before.size = cs := by
  induction cs generalizing before with
  | nil => rw [inputFrom]; simp
  | cons c cs ih =>
    have hd := utf8DecodeChar?_size_append before c cs
    have hs : before ++ (c :: cs).utf8Encode = (before ++ [c].utf8Encode) ++ cs.utf8Encode := by
      rw [ByteArray.append_assoc, ← List.utf8Encode_cons]
    have hn : (before ++ [c].utf8Encode).size = before.size + c.utf8Size := by
      rw [ByteArray.size_append, List.utf8Encode_singleton]; simp
    rw [inputFrom, if_pos (ByteArray.lt_size_of_isSome_utf8DecodeChar? (by simp [hd]))]
    simp only [hd]
    rw [hs, ← hn, ih]

theorem ofBytes_toUTF8 (s : String) : ofBytes s.toUTF8 = s := by
  have h : inputFrom s.toUTF8 0 = s.toList := by
    simpa using inputFrom_append .empty s.toList
  rw [ofBytes, h, String.ofList_toList]

end PackageStaging.Json
