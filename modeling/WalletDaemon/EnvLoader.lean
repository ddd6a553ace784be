import WalletDaemon.FileTree
import WalletDaemon.Text
import WalletDaemon.Utf16

/-! Loading `.env`, which may have been written as UTF-16. What `dotenvy` makes of
the text or the path it is handed is left out. -/

namespace WalletDaemon.EnvLoader

open Utf16

inductive Loaded
  | nothing
  | fromPath (path : TreePath)
  | fromRead (bytes : Bytes)
deriving DecidableEq, Repr

def findDotenvFrom (tree : FileTree Bytes) (dir : TreePath) : Option TreePath :=
  if tree.isFile (dir ++ [".env"]) then some (dir ++ [".env"])
  else if dir = [] then none
  else findDotenvFrom tree dir.dropLast
termination_by dir.length
decreasing_by
  have := List.length_pos_iff.mpr ‹¬dir = []›
  rw [List.length_dropLast]
  omega

def findDotenv (tree : FileTree Bytes) (currentDir : Option TreePath) : Option TreePath :=
  currentDir.bind (findDotenvFrom tree)

def fromLeBytes (a b : UInt8) : UInt16 := UInt16.ofNat (a.toNat + 0x100 * b.toNat)

def fromBeBytes (a b : UInt8) : UInt16 := UInt16.ofNat (0x100 * a.toNat + b.toNat)

/-- The units of the whole pairs of bytes. -/
def units (toU16 : UInt8 → UInt8 → UInt16) : Bytes → List UInt16
  | [] => []
  | [_] => []
  | a :: b :: rest => toU16 a b :: units toU16 rest

/-- A byte that is left over becomes a unit of its own. -/
def decodeUtf16 (body : Bytes) (toU16 : UInt8 → UInt8 → UInt16) : String :=
  fromUtf16Lossy (units toU16 body ++ if body.length % 2 = 0 then [] else [0xFFFD])

/-- The text of a file that starts with a byte-order mark of UTF-16. -/
def transcode (bytes : Bytes) : Option String :=
  if [0xFF, 0xFE].isPrefixOf bytes then some (decodeUtf16 (bytes.drop 2) fromLeBytes)
  else if [0xFE, 0xFF].isPrefixOf bytes then some (decodeUtf16 (bytes.drop 2) fromBeBytes)
  else none

def loadEnv (tree : FileTree Bytes) (currentDir : Option TreePath) : Loaded :=
  match findDotenv tree currentDir with
  | none => .nothing
  | some path =>
    match tree.read path with
    | none => .nothing
    | some bytes =>
      match transcode bytes with
      | some text => .fromRead (utf8 text)
      | none => .fromPath path

section Transcoding

inductive ByteOrder
  | littleEndian
  | bigEndian
deriving DecidableEq, Repr

def ByteOrder.mark : ByteOrder → Bytes
  | .littleEndian => [0xFF, 0xFE]
  | .bigEndian => [0xFE, 0xFF]

def ByteOrder.toU16 : ByteOrder → UInt8 → UInt8 → UInt16
  | .littleEndian => fromLeBytes
  | .bigEndian => fromBeBytes

def ByteOrder.toBytes (order : ByteOrder) (u : UInt16) : Bytes :=
  let low := UInt8.ofNat (u.toNat % 0x100)
  let high := UInt8.ofNat (u.toNat / 0x100)
  match order with
  | .littleEndian => [low, high]
  | .bigEndian => [high, low]

/-- A file written as UTF-16 with its byte-order mark. -/
def utf16Bom (order : ByteOrder) (text : String) : Bytes :=
  order.mark ++ (encode text).flatMap order.toBytes

variable {order : ByteOrder}

theorem units_toBytes (u : UInt16) (rest : Bytes) :
    units order.toU16 (order.toBytes u ++ rest) = u :: units order.toU16 rest := by
  have small := u.toNat_lt
  have low : (UInt8.ofNat (u.toNat % 0x100)).toNat = u.toNat % 0x100 := by
    rw [UInt8.toNat_ofNat']
    omega
  have high : (UInt8.ofNat (u.toNat / 0x100)).toNat = u.toNat / 0x100 := by
    rw [UInt8.toNat_ofNat']
    omega
  cases order with
  | littleEndian =>
    have whole : u.toNat % 0x100 + 0x100 * (u.toNat / 0x100) = u.toNat := by omega
    simp only [ByteOrder.toBytes, ByteOrder.toU16, List.cons_append, List.nil_append, units,
      fromLeBytes, low, high, whole, UInt16.ofNat_toNat]
  | bigEndian =>
    have whole : 0x100 * (u.toNat / 0x100) + u.toNat % 0x100 = u.toNat := by omega
    simp only [ByteOrder.toBytes, ByteOrder.toU16, List.cons_append, List.nil_append, units,
      fromBeBytes, low, high, whole, UInt16.ofNat_toNat]

theorem units_flatMap (order : ByteOrder) (us : List UInt16) (rest : Bytes) :
    units order.toU16 (us.flatMap order.toBytes ++ rest) = us ++ units order.toU16 rest := by
  induction us with
  | nil => rfl
  | cons u us ih => rw [List.flatMap_cons, List.append_assoc, units_toBytes, ih, List.cons_append]

theorem length_flatMap (us : List UInt16) : (us.flatMap order.toBytes).length = 2 * us.length := by
  induction us with
  | nil => rfl
  | cons u us ih =>
    have two : (order.toBytes u).length = 2 := by cases order <;> rfl
    rw [List.flatMap_cons, List.length_append, ih, two, List.length_cons]
    omega

theorem transcode_mark (order : ByteOrder) (body : Bytes) :
    transcode (order.mark ++ body) = some (decodeUtf16 body order.toU16) := by
  cases order <;> simp [transcode, ByteOrder.mark, ByteOrder.toU16]

theorem decodeUtf16_encode (text : String) :
    decodeUtf16 ((encode text).flatMap order.toBytes) order.toU16 = text := by
  have all := units_flatMap order (encode text) []
  rw [List.append_nil] at all
  rw [decodeUtf16, all, length_flatMap, if_pos (by omega), units, List.append_nil, List.append_nil]
  simpa [fromUtf16Lossy, decode] using fromUtf16Lossy_encode text []

theorem decodeUtf16_dangling (text : String) (b : UInt8) :
    decodeUtf16 ((encode text).flatMap order.toBytes ++ [b]) order.toU16 =
      text.push replacementCharacter := by
  rw [decodeUtf16, units_flatMap, List.length_append, length_flatMap, List.length_singleton,
    if_neg (by omega), units, List.append_nil, fromUtf16Lossy_encode, String.push_eq_append]
  rfl

/-- UTF-16 files are transcoded without loss, in either byte order, and a dangling
byte becomes U+FFFD. -/
theorem transcode_utf16Bom (order : ByteOrder) (text : String) :
    transcode (utf16Bom order text) = some text ∧
      ∀ dangling, transcode (utf16Bom order text ++ [dangling]) =
        some (text.push replacementCharacter) := by
  refine ⟨?_, fun dangling => ?_⟩
  · rw [utf16Bom, transcode_mark, decodeUtf16_encode]
  · rw [utf16Bom, List.append_assoc, transcode_mark, decodeUtf16_dangling]

/-- Of any body no unit is dropped, and none but a surrogate is changed. -/
theorem decodeUtf16_units (body : Bytes) (toU16 : UInt8 → UInt8 → UInt16) :
    List.Forall₂ Mended (units toU16 body ++ if body.length % 2 = 0 then [] else [0xFFFD])
      (encode (decodeUtf16 body toU16)) :=
  encode_fromUtf16Lossy _

end Transcoding

section Finding

variable {tree : FileTree Bytes} {dir path : TreePath}

theorem findDotenvFrom_here (h : tree.isFile (dir ++ [".env"]) = true) :
    findDotenvFrom tree dir = some (dir ++ [".env"]) := by
  rw [findDotenvFrom, if_pos h]

theorem findDotenvFrom_root (h : tree.isFile [".env"] = false) :
    findDotenvFrom tree [] = none := by
  rw [findDotenvFrom, List.nil_append, h]
  rfl

theorem findDotenvFrom_above {name : String}
    (h : tree.isFile (dir ++ [name] ++ [".env"]) = false) :
    findDotenvFrom tree (dir ++ [name]) = findDotenvFrom tree dir := by
  rw [findDotenvFrom, h, if_neg Bool.false_ne_true, if_neg (by simp), List.dropLast_concat]

/-- `above` has the nearest `.env` at or above `dir`. -/
structure Nearest (tree : FileTree Bytes) (dir above : TreePath) : Prop where
  within : above <+: dir
  here : tree.isFile (above ++ [".env"]) = true
  nearest : ∀ nearer, nearer <+: dir → tree.isFile (nearer ++ [".env"]) = true → nearer <+: above

theorem findDotenvFrom_iff :
    findDotenvFrom tree dir = some path ↔
      ∃ above, Nearest tree dir above ∧ above ++ [".env"] = path := by
  induction dir using List.reverseRecOn with
  | nil =>
    by_cases h : tree.isFile [".env"] = true
    · rw [findDotenvFrom_here h]
      constructor
      · intro same
        exact ⟨[], ⟨List.prefix_rfl, h, fun _ within _ => within⟩, Option.some.inj same⟩
      · rintro ⟨above, near, same⟩
        rw [List.prefix_nil.mp near.within] at same
        rw [← same]
    · rw [findDotenvFrom_root (by simpa using h)]
      refine iff_of_false nofun ?_
      rintro ⟨above, near, -⟩
      have here := near.here
      rw [List.prefix_nil.mp near.within] at here
      exact h here
  | append_singleton dir name ih =>
    by_cases h : tree.isFile (dir ++ [name] ++ [".env"]) = true
    · rw [findDotenvFrom_here h]
      constructor
      · intro same
        exact ⟨_, ⟨List.prefix_rfl, h, fun _ within _ => within⟩, Option.some.inj same⟩
      · rintro ⟨above, near, same⟩
        have whole : dir ++ [name] = above :=
          List.IsPrefix.eq_of_length_le (near.nearest _ List.prefix_rfl h) near.within.length_le
        rw [whole, same]
    · rw [findDotenvFrom_above (by simpa using h), ih]
      have not_here : ∀ above, tree.isFile (above ++ [".env"]) = true →
          (above <+: dir ++ [name] ↔ above <+: dir) := by
        intro above here
        rw [List.prefix_concat_iff]
        constructor
        · rintro (rfl | within)
          · exact absurd here h
          · exact within
        · exact .inr
      constructor
      · rintro ⟨above, near, same⟩
        refine ⟨above, ⟨(not_here above near.here).mpr near.within, near.here, ?_⟩, same⟩
        intro nearer within here
        exact near.nearest nearer ((not_here nearer here).mp within) here
      · rintro ⟨above, near, same⟩
        refine ⟨above, ⟨(not_here above near.here).mp near.within, near.here, ?_⟩, same⟩
        intro nearer within here
        exact near.nearest nearer ((not_here nearer here).mpr within) here

/-- The nearest `.env` is loaded: a UTF-16 one by its text, another by its path. -/
theorem loadEnv_nearest {above : TreePath} {bytes : Bytes} (near : Nearest tree dir above)
    (content : tree.read (above ++ [".env"]) = some bytes) :
    loadEnv tree (some dir) =
      match transcode bytes with
      | some text => .fromRead (utf8 text)
      | none => .fromPath (above ++ [".env"]) := by
  have found : findDotenv tree (some dir) = some (above ++ [".env"]) :=
    findDotenvFrom_iff.mpr ⟨above, near, rfl⟩
  rw [loadEnv, found]
  simp only [content]

/-- What was written as UTF-16 reaches `dotenvy` as it was. -/
theorem loadEnv_utf16Bom {above : TreePath} {order : ByteOrder} {text : String}
    (near : Nearest tree dir above)
    (content : tree.read (above ++ [".env"]) = some (utf16Bom order text)) :
    loadEnv tree (some dir) = .fromRead (utf8 text) := by
  rw [loadEnv_nearest near content, utf16Bom, transcode_mark, decodeUtf16_encode]

end Finding

end WalletDaemon.EnvLoader
