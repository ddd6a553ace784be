import WalletDaemon.TransactionRequest
import Mathlib.Data.List.DropRight
import Mathlib.Data.Nat.Digits.Defs

/-! What is logged of a `pusher:error`. The service may echo the credentials that
were submitted; a word of its message is dropped when it looks like them. -/

namespace WalletDaemon.PusherError

/-- `serde_json::Value`; a number that is no integer is kept as its text. -/
inductive Value
  | null
  | bool (flag : Bool)
  | integer (n : Int)
  | float (text : String)
  | string (text : String)
  | array (items : List Value)
  | object (fields : List (String × Value))

def Value.get (key : String) : Value → Option Value
  | .object fields => fields.lookup key
  | _ => none

def Value.asI64 : Value → Option Int
  | .integer n => if -2 ^ 63 ≤ n ∧ n < 2 ^ 63 then some n else none
  | _ => none

def Value.asStr : Value → Option String
  | .string text => some text
  | _ => none

def isWhitespace (c : Char) : Bool :=
  let n := c.toNat
  (9 ≤ n && n ≤ 13) || n == 0x20 || n == 0x85 || n == 0xA0 || n == 0x1680 ||
    (0x2000 ≤ n && n ≤ 0x200A) || n == 0x2028 || n == 0x2029 || n == 0x202F || n == 0x205F ||
    n == 0x3000

def splitWhitespace (text : List Char) : List (List Char) :=
  (text.splitOnP isWhitespace).filter fun word => !word.isEmpty

/-- What is trimmed off a word. -/
def isMargin (c : Char) : Bool := !c.isAlphanum && c != ':'

def trimMatches (word : List Char) : List Char := (word.dropWhile isMargin).rdropWhile isMargin

/-- `str::len`: the length in UTF-8. -/
def byteLength (text : List Char) : Nat := (text.map Char.utf8Size).sum

def redactWord (word : List Char) : List Char :=
  let candidate := trimMatches word
  if candidate.contains ':' && decide (32 ≤ byteLength candidate) then "[redacted]".toList else word

/-- Keep the wording and drop anything that looks like an app-key-prefixed signature. -/
def redactPusherMessage (message : String) : String :=
  String.ofList ([' '].intercalate ((splitWhitespace message.toList).map redactWord))

section Report

-- `serde_json::from_str`
variable (fromStr : String → Option Value)

def decoded (data : Value) : Value :=
  match data with
  | .string encoded => (fromStr encoded).getD .null
  | other => other

def errorCode (data : Value) : String :=
  match ((decoded fromStr data).get "code").bind Value.asI64 with
  | some code => toString code
  | none => "unknown"

def errorMessage (data : Value) : Option String :=
  (((decoded fromStr data).get "message").bind Value.asStr).or data.asStr

def pusherError (data : Value) : String :=
  "Pusher protocol error (code " ++ errorCode fromStr data ++ "): " ++
    match errorMessage fromStr data with
    | some message => redactPusherMessage message
    | none => "no message"

end Report

/-- The hex digest that follows the app key in an auth string. -/
structure Signature where
  digits : List Char
  length : digits.length = 64
  hex : ∀ c ∈ digits, (hexValue c).isSome

def Reveals (signature : Signature) (text : String) : Prop := signature.digits <:+: text.toList

section Infix

variable {α : Type} {part front back : List α} {c : α}

theorem infix_around (outside : c ∉ part) (some_ : part ≠ []) :
    part <:+: front ++ c :: back ↔ part <:+: front ∨ part <:+: back := by
  have cut : ∀ {head}, head ≠ [] → c ∉ head → ¬ head <+: c :: back := by
    intro head some_ outside starts
    cases head with
    | nil => exact some_ rfl
    | cons first rest =>
      obtain ⟨tail, same⟩ := starts
      simp only [List.cons_append, List.cons.injEq] at same
      exact outside (by simp [same.1])
  rw [List.infix_append_iff, List.infix_cons_iff]
  constructor
  · rintro (left | (starts | right) | ⟨left, right, rfl, ends, starts⟩)
    · exact .inl left
    · exact absurd starts (cut some_ outside)
    · exact .inr right
    · by_cases none : right = []
      · subst none
        simpa using Or.inl ends.isInfix
      · exact absurd starts (cut none fun inside => outside (List.mem_append_right _ inside))
  · rintro (left | right)
    · exact .inl left
    · exact .inr (.inl (.inr right))

theorem infix_intercalate {pieces : List (List α)} (outside : c ∉ part) (some_ : part ≠ []) :
    part <:+: [c].intercalate pieces ↔ ∃ piece ∈ pieces, part <:+: piece := by
  induction pieces with
  | nil => simp [some_]
  | cons piece pieces ih =>
    cases pieces with
    | nil => simp
    | cons next pieces =>
      have split : [c].intercalate (piece :: next :: pieces) =
          piece ++ c :: [c].intercalate (next :: pieces) := by
        simp [List.intercalate, List.intersperse]
      rw [split, infix_around outside some_, ih]
      simp

variable {p : α → Bool}

theorem infix_dropWhile (kept : ∀ a ∈ part, p a = false) :
    part <:+: front.dropWhile p ↔ part <:+: front := by
  constructor
  · exact fun inside => inside.trans (List.dropWhile_suffix p).isInfix
  · rintro ⟨before, after, rfl⟩
    induction before with
    | nil =>
      cases part with
      | nil => simp
      | cons a part =>
        have stays : ¬ p a = true := by simp [kept a]
        rw [List.nil_append, List.cons_append, List.dropWhile_cons_of_neg stays]
        exact ⟨[], after, rfl⟩
    | cons b before ih =>
      by_cases drops : p b = true
      · simpa [drops] using ih
      · simp [drops]
        exact ⟨b :: before, after, by simp⟩

theorem infix_rdropWhile (kept : ∀ a ∈ part, p a = false) :
    part <:+: front.rdropWhile p ↔ part <:+: front := by
  rw [List.rdropWhile, ← List.reverse_infix, List.reverse_reverse,
    infix_dropWhile (by simpa using kept), List.reverse_infix]

end Infix

section Redaction

theorem hexValue_range {c : Char} (h : (hexValue c).isSome) :
    48 ≤ c.toNat ∧ c.toNat ≤ 57 ∨ 97 ≤ c.toNat ∧ c.toNat ≤ 102 ∨ 65 ≤ c.toNat ∧ c.toNat ≤ 70 := by
  unfold hexValue at h
  split at h
  · rename_i digit
    exact .inl digit
  split at h
  · rename_i small
    exact .inr (.inl small)
  split at h
  · rename_i capital
    exact .inr (.inr capital)
  · simp at h

theorem Signature.kept (signature : Signature) {c : Char} (inside : c ∈ signature.digits) :
    isMargin c = false ∧ isWhitespace c = false ∧ c ≠ ':' := by
  have range := hexValue_range (signature.hex c inside)
  have alphanumeric : c.isAlphanum = true := by
    delta Char.isAlphanum Char.isAlpha Char.isUpper Char.isLower Char.isDigit
    simp only [Bool.or_eq_true, Bool.and_eq_true, decide_eq_true_eq, ge_iff_le,
      UInt32.le_iff_toNat_le, Char.toNat_val]
    simp
    omega
  refine ⟨by simp [isMargin, alphanumeric], ?_, ?_⟩
  · simp only [isWhitespace, Bool.or_eq_false_iff, Bool.and_eq_false_iff, decide_eq_false_iff_not,
      beq_eq_false_iff_ne]
    omega
  · rintro rfl
    simp at range

theorem Signature.ne_nil (signature : Signature) : signature.digits ≠ [] := by
  intro empty
  have length := signature.length
  simp [empty] at length

theorem not_reveals_of_length {signature : Signature} {text : List Char} (short : text.length < 64) :
    ¬ signature.digits <:+: text := by
  intro inside
  have length := inside.length_le
  rw [signature.length] at length
  omega

theorem length_le_byteLength (text : List Char) : text.length ≤ byteLength text := by
  induction text with
  | nil => rfl
  | cons c text ih =>
    have pos := c.utf8Size_pos
    simp only [byteLength, List.map_cons, List.sum_cons, List.length_cons] at *
    omega

/-- A word with the signature stays exactly when it has no colon. -/
theorem redactWord_reveals (signature : Signature) (word : List Char) :
    signature.digits <:+: redactWord word ↔ signature.digits <:+: word ∧ ':' ∉ word := by
  have margin : ∀ part : List Char, (∀ c ∈ part, isMargin c = false) →
      (part <:+: trimMatches word ↔ part <:+: word) := fun part kept => by
    rw [trimMatches, infix_rdropWhile kept, infix_dropWhile kept]
  have colon : ':' ∈ trimMatches word ↔ ':' ∈ word := by
    simpa [List.singleton_infix_iff] using margin [':'] (by simp [isMargin])
  have digits := margin signature.digits fun c inside => (signature.kept inside).1
  have gone : ¬ signature.digits <:+: "[redacted]".toList := not_reveals_of_length (by decide)
  unfold redactWord
  dsimp only
  by_cases inside : signature.digits <:+: word
  · have long : 32 ≤ byteLength (trimMatches word) := by
      have length := (digits.mpr inside).length_le
      have bytes := length_le_byteLength (trimMatches word)
      rw [signature.length] at length
      omega
    by_cases has : ':' ∈ word
    · rw [if_pos (by simp [colon, has, long])]
      exact iff_of_false gone fun both => both.2 has
    · rw [if_neg (by simp [colon, has])]
      exact (and_iff_left has).symm
  · refine iff_of_false ?_ fun both => inside both.1
    split
    · exact gone
    · exact inside

theorem redactPusherMessage_reveals (signature : Signature) (message : String) :
    Reveals signature (redactPusherMessage message) ↔
      ∃ word ∈ splitWhitespace message.toList, signature.digits <:+: word ∧ ':' ∉ word := by
  have space : ' ' ∉ signature.digits := fun inside =>
    absurd (signature.kept inside).2.1 (by decide)
  rw [Reveals, redactPusherMessage, String.toList_ofList, infix_intercalate space signature.ne_nil]
  simp only [List.mem_map, exists_exists_and_eq_and, redactWord_reveals]

theorem errorCode_length (fromStr : String → Option Value) (data : Value) :
    (errorCode fromStr data).toList.length ≤ 20 := by
  unfold errorCode
  split
  · rename_i code read
    have bounds : -2 ^ 63 ≤ code ∧ code < 2 ^ 63 := by
      obtain ⟨value, -, integer⟩ := Option.bind_eq_some_iff.mp read
      unfold Value.asI64 at integer
      split at integer
      · split at integer
        · rename_i bounds
          rwa [← Option.some.inj integer]
        · cases integer
      · cases integer
    rw [String.length_toList]
    cases code with
    | ofNat n => exact (Nat.repr_length n 19 (by decide) (by simp at bounds; omega)).trans (by decide)
    | negSucc n =>
      have digits := Nat.repr_length (n + 1) 19 (by decide) (by omega)
      have text : toString (Int.negSucc n) = "-" ++ (n + 1).repr := rfl
      have sign : "-".length = 1 := rfl
      rw [text, String.length_append]
      omega
  · decide

theorem pusherError_reveals (fromStr : String → Option Value) (signature : Signature)
    (data : Value) :
    Reveals signature (pusherError fromStr data) ↔
      ∃ message, errorMessage fromStr data = some message ∧
        Reveals signature (redactPusherMessage message) := by
  have space : ' ' ∉ signature.digits := fun inside =>
    absurd (signature.kept inside).2.1 (by decide)
  have framed : ∀ text : String, Reveals signature
      ("Pusher protocol error (code " ++ errorCode fromStr data ++ "): " ++ text) ↔
        Reveals signature text := by
    intro text
    have words : ("Pusher protocol error (code " ++ errorCode fromStr data ++ "): " ++ text).toList =
        "Pusher".toList ++ ' ' :: ("protocol".toList ++ ' ' :: ("error".toList ++ ' ' ::
          ("(code".toList ++ ' ' :: ((errorCode fromStr data).toList ++ "):".toList ++ ' ' ::
            text.toList)))) := by
      simp
    have length := errorCode_length fromStr data
    rw [Reveals, words, infix_around space signature.ne_nil, infix_around space signature.ne_nil,
      infix_around space signature.ne_nil, infix_around space signature.ne_nil,
      infix_around space signature.ne_nil]
    have short : ∀ word : List Char, word.length < 64 → (signature.digits <:+: word ↔ False) :=
      fun word short => iff_of_false (not_reveals_of_length short) not_false
    rw [short _ (by decide), short _ (by decide), short _ (by decide), short _ (by decide),
      short _ (by rw [List.length_append]; simp; omega)]
    simp only [false_or, Reveals]
  unfold pusherError
  rw [framed]
  cases errorMessage fromStr data with
  | none =>
    have gone : ¬ Reveals signature "no message" := not_reveals_of_length (by decide)
    simp [gone]
  | some message => simp

/-- The report of an error conceals the signature exactly when every word of the
message that holds it has a colon, as after an app key. -/
theorem pusherError_conceals_iff (fromStr : String → Option Value) (signature : Signature)
    (data : Value) :
    ¬ Reveals signature (pusherError fromStr data) ↔
      ∀ message, errorMessage fromStr data = some message →
        ∀ word ∈ splitWhitespace message.toList, signature.digits <:+: word → ':' ∈ word := by
  rw [pusherError_reveals]
  simp only [redactPusherMessage_reveals]
  push Not
  rfl

def letters : Signature := ⟨List.replicate 64 'a', by decide, by
  intro c inside
  rw [List.eq_of_mem_replicate inside]
  decide⟩

/-- The service quotes the digest alone. -/
theorem letters_revealed : Reveals letters (pusherError (fun _ => none) (.object
    [("code", .integer 4009),
      ("message", .string (String.ofList ("expected ".toList ++ letters.digits)))])) := by
  have given : ∀ message, errorMessage (fun _ => none)
      (.object [("code", .integer 4009), ("message", .string message)]) = some message := by
    intro message
    simp [errorMessage, decoded, Value.get, Value.asStr, List.lookup_cons]
  rw [pusherError_reveals]
  refine ⟨_, given _, ?_⟩
  rw [redactPusherMessage_reveals, String.toList_ofList]
  exact ⟨letters.digits, by decide, List.infix_rfl, by decide⟩

end Redaction

end WalletDaemon.PusherError
