import WalletDaemon.Measure
import WalletDaemon.Metadata

/-! Signing the inner call of a fuel tank dispatch.
The SCALE library's encoder and the texts of its errors are parameters; its
decoder and the measuring visitor are the ones of the model. A call of the
signing function is logged with its message, so that how often it was invoked
can be read off a result. Where the library runs out of stack there is no result
to hand on: the process ends. -/

namespace WalletDaemon.FuelTank

open Scale Reader WalletDaemon.Measure

/-- `[u8; 64]`. -/
abbrev Signature := { bytes : Bytes // bytes.length = 64 }

/-- Why a dispatch was not signed: the daemon refuses it, or the process ends. -/
inductive Failure
  | refused (text : String)
  | stackOverflow
deriving DecidableEq, Repr

structure ScaleLibrary where
  stack : Nat
  encodeAsType : PortableRegistry → TypeId → Value → Except Failure Bytes
  decodeErrorText : DecodeError → String

namespace ScaleLibrary

def decodeAsType (scale : ScaleLibrary) (registry : PortableRegistry) (ty : TypeId) :
    Decoding Value := decode registry validUtf8 scale.stack false ty

def failure (scale : ScaleLibrary) (context : String) : Stop → Failure
  | .error e => .refused (context ++ scale.decodeErrorText e)
  | .stackOverflow => .stackOverflow

def measureErrorText (scale : ScaleLibrary) : MeasureError → String
  | .decode error => scale.decodeErrorText error
  | .tooDeep => "nested more than " ++ toString maxNesting ++ " levels deep"

/-- Encoding a value under a type and decoding it gives the value back. -/
def RoundTrips (scale : ScaleLibrary) : Prop :=
  ∀ registry ty value bytes, scale.encodeAsType registry ty value = .ok bytes →
    scale.decodeAsType registry ty bytes = .ok (value, [])

end ScaleLibrary

/-- A result, and the messages that were signed on the way to it. -/
abbrev Signing (α : Type) := List Bytes → Except Failure α × List Bytes

def Signing.lift {α : Type} (result : Except Failure α) : Signing α := fun log => (result, log)

def Signing.andThen {α β : Type} (m : Signing α) (f : α → Signing β) : Signing β := fun log =>
  match m log with
  | (.ok a, log) => f a log
  | (.error e, log) => (.error e, log)

def Signing.invoke (sign : Bytes → Signature) (message : Bytes) : Signing Signature :=
  fun log => (.ok (sign message), log ++ [message])

/-- The runtime reads `None` settings as the default: `Some` followed by zeroes. -/
def defaultSettings : Bytes := 1 :: List.replicate 255 0

/-- Whether `value` is what a zero byte decodes to as a bool or an option. -/
def isZero : Value → Bool
  | .primitive (.bool flag) => !flag
  | .variant name values => name = "None" && values.isEmpty
  | _ => false

def isNone : Value → Bool
  | .variant name _ => name = "None"
  | _ => false

/-- The named fields inside `Some`, when the settings have that shape. -/
def someFields : Value → Option (List (String × Value))
  | .variant name (.unnamed [.composite (.named fields)]) =>
    if name = "Some" then some fields else none
  | _ => none

/-- The named fields of the dispatch settings, in metadata order. -/
def dispatchSettings (scale : ScaleLibrary) (encoded : Bytes) (settingsType : TypeId)
    (metadata : Metadata) : Except Failure (List (String × Value)) :=
  let decode (bytes : Bytes) : Except Stop Value :=
    (scale.decodeAsType metadata.types settingsType bytes).map Prod.fst
  match decode encoded with
  | .error stop => .error (scale.failure "decoding fuel tank settings: " stop)
  | .ok sent =>
    let isDefault := isNone sent
    let settings := if isDefault then decode defaultSettings else .ok sent
    match settings with
    | .error stop => .error (scale.failure "dispatch settings have no known default: " stop)
    | .ok settings =>
      match someFields settings with
      | none => .error (.refused "invalid dispatch settings")
      | some fields =>
        match fields.find? fun f => isDefault && f.1 ≠ "signature" && !isZero f.2 with
        | some (name, _) =>
          .error (.refused ("dispatch settings field " ++ name ++ " has no known default"))
        | none => .ok fields

def fromBytes (bytes : Bytes) : Value :=
  .composite (.unnamed (bytes.map fun b => .primitive (.u128 b.toNat)))

def someVariant (value : Value) : Value := .variant "Some" (.unnamed [value])

/-- `Some` of an expirable signature. -/
def signatureValue (signature : Signature) (expirationBlock : Nat) : Value :=
  someVariant (.composite (.named
    [("signature", fromBytes signature.1), ("expiry_block", .primitive (.u128 expirationBlock))]))

/-- The settings with the field at `signatureIndex` filled in. -/
def signedFields (fields : List (String × Value)) (signatureIndex : Nat) (signature : Signature)
    (expirationBlock : Nat) : List (String × Value) :=
  fields.modify signatureIndex fun f => (f.1, signatureValue signature expirationBlock)

def settingsValue (fields : List (String × Value)) (signatureIndex : Nat)
    (signature : Signature) (expirationBlock : Nat) : Value :=
  someVariant (.composite (.named (signedFields fields signatureIndex signature expirationBlock)))

def encodeSettings (scale : ScaleLibrary) (metadata : Metadata) (settingsType : TypeId)
    (fields : List (String × Value)) (signatureIndex expirationBlock : Nat)
    (signature : Signature) : Except Failure Bytes :=
  match scale.encodeAsType metadata.types settingsType
      (settingsValue fields signatureIndex signature expirationBlock) with
  | .error (.refused e) => .error (.refused ("encoding fuel tank settings: " ++ e))
  | .error .stackOverflow => .error .stackOverflow
  | .ok encoded => .ok encoded

/-- Start and end of a range of the transaction. -/
structure Range where
  start : Nat
  stop : Nat
deriving DecidableEq, Repr

def Range.slice (range : Range) (tx : Bytes) : Bytes :=
  (tx.take range.stop).drop range.start

/-- State of the loop over the call's arguments. -/
structure Layout where
  remaining : Bytes
  call : Option Range
  settings : Option (Range × TypeId)
deriving DecidableEq, Repr

def measureArg (scale : ScaleLibrary) (metadata : Metadata) (tx : Bytes) (layout : Layout)
    (field : CallArg) : Except Failure Layout :=
  let start := tx.length - layout.remaining.length
  match measure metadata.types scale.stack 0 false field.ty layout.remaining with
  | none => .error .stackOverflow
  | some (.error e, _) =>
    .error (.refused ("decoding fuel tank " ++ field.name ++ ": " ++ scale.measureErrorText e))
  | some (.ok _, remaining) =>
    let range : Range := ⟨start, tx.length - remaining.length⟩
    .ok (if field.name = "call" then { layout with remaining, call := some range }
      else if field.name = "settings" then
        { layout with remaining, settings := some (range, field.ty) }
      else { layout with remaining })

def measureArgs (scale : ScaleLibrary) (metadata : Metadata) (tx : Bytes) :
    List CallArg → Layout → Except Failure Layout
  | [], layout => .ok layout
  | field :: fields, layout =>
    match measureArg scale metadata tx layout field with
    | .error e => .error e
    | .ok layout => measureArgs scale metadata tx fields layout

/-- Where the call's arguments are, for a fuel tank dispatch. -/
def locate (scale : ScaleLibrary) (tx : Bytes) (metadata : Metadata) :
    Except Failure (Range × Range × TypeId) :=
  match tx with
  | palletIndex :: callIndex :: arguments =>
    match metadata.extrinsicCallInfoByIndex palletIndex callIndex with
    | .error e => .error (.refused ("fuel tank call metadata: " ++ e))
    | .ok info =>
      if info.palletName ≠ "FuelTanks" ∨
          ¬ (info.callName = "dispatch" ∨ info.callName = "dispatch_and_touch") then
        .error (.refused "expected FuelTanks.dispatch or FuelTanks.dispatch_and_touch")
      else
        match measureArgs scale metadata tx info.args ⟨arguments, none, none⟩ with
        | .error e => .error e
        | .ok layout =>
          if ¬ layout.remaining.isEmpty then
            .error (.refused "unexpected trailing bytes in fuel tank call")
          else
            match layout.call, layout.settings with
            | none, _ => .error (.refused "fuel tank call is missing its inner call")
            | some _, none => .error (.refused "fuel tank call is missing dispatch settings")
            | some call, some (settings, settingsType) => .ok (call, settings, settingsType)
  | _ => .error (.refused "fuel tank call is missing its call index")

def signatureField (fields : List (String × Value)) : Except Failure Nat :=
  match fields.findIdx? fun f => f.1 = "signature" with
  | some index => .ok index
  | none => .error (.refused "dispatch settings is missing its signature field")

/-- The bytes the fuel tank's signer signs. -/
def dispatchMessage (call publicKey : Bytes) (expirationBlock : Nat) : Bytes :=
  call ++ publicKey ++ leBytes 4 expirationBlock

/-- `[0; 64]`, encoded first so that settings that cannot be encoded fail
before anything is signed. -/
def placeholder : Signature := ⟨List.replicate 64 0, rfl⟩

/-- Sign the fuel tank's inner call and replace its signature using the chain's
call layout. -/
def signDispatch (scale : ScaleLibrary) (tx : Bytes) (metadata : Metadata) (publicKey : Bytes)
    (expirationBlock : Nat) (sign : Bytes → Signature) : Signing Bytes :=
  (Signing.lift (locate scale tx metadata)).andThen fun (call, settings, settingsType) =>
  (Signing.lift (dispatchSettings scale (settings.slice tx) settingsType metadata)).andThen
    fun fields =>
  (Signing.lift (signatureField fields)).andThen fun signatureIndex =>
  let encode := encodeSettings scale metadata settingsType fields signatureIndex expirationBlock
  (Signing.lift (encode placeholder)).andThen fun _ =>
  (Signing.invoke sign (dispatchMessage (call.slice tx) publicKey expirationBlock)).andThen
    fun signature =>
  (Signing.lift (encode signature)).andThen fun encoded =>
  Signing.lift (.ok (tx.take settings.start ++ encoded ++ tx.drop settings.stop))

end WalletDaemon.FuelTank
