import Mathlib.Data.Finset.Basic

/-! The platform as the daemon sees it: GraphQL replies over HTTP.
A send is given as a function of the attempt number, so that a retried
operation may meet a different reply each time. Query documents, headers and
the debug log of a response are outside the model. -/

namespace WalletDaemon

abbrev Bytes := List UInt8

inductive Network
  | canary
  | enjin
deriving DecidableEq, Repr

inductive Chain
  | matrix
  | relay
deriving DecidableEq, Repr

/-- Per-batch chain key for block / metadata prefetch. -/
abbrev ChainKey := Network × Chain

/-- `(network, chain, signer public key)`. -/
abbrev NonceKey := Network × Chain × Bytes

def NonceKey.chainKey (key : NonceKey) : ChainKey := (key.1, key.2.1)

namespace Platform

/-- The kinds of `reqwest::Error`; each begins the error's text. -/
inductive ReqwestErrorKind
  | builder
  | request
  | redirect
  | status
  | body
  | decode
  | upgrade
deriving DecidableEq, Repr

def ReqwestErrorKind.phrase : ReqwestErrorKind → String
  | .builder => "builder error"
  | .request => "error sending request"
  | .redirect => "error following redirect"
  | .status => "HTTP status error"
  | .body => "request or response body error"
  | .decode => "error decoding response body"
  | .upgrade => "error upgrading connection"

structure ReqwestError where
  kind : ReqwestErrorKind
  detail : String
deriving DecidableEq, Repr

def ReqwestError.toText (error : ReqwestError) : String := error.kind.phrase ++ error.detail

section Escapes

/-- A character behind a backslash. -/
def escaped (c : Char) : List Char := ['\\', c]

/-- What `serde_json` writes for a character of a string. -/
def jsonEscape (c : Char) : List Char :=
  if c = '"' ∨ c = '\\' then escaped c
  else if c = '\x08' then escaped 'b'
  else if c = '\t' then escaped 't'
  else if c = '\n' then escaped 'n'
  else if c = '\x0c' then escaped 'f'
  else if c = '\r' then escaped 'r'
  else if c < ' ' then
    escaped 'u' ++ ['0', '0', (c.toNat / 16).digitChar, (c.toNat % 16).digitChar]
  else [c]

/-- Characters up to `U+00FF` that Rust does not print in a `{:?}`. -/
def unprintable (c : Char) : Bool :=
  c < ' ' || ('\x7f' ≤ c && c ≤ '\xa0') || c = '\xad'

/-- What `{:?}` writes for a character between such quotes. -/
def debugEscape (quote c : Char) : List Char :=
  if c = quote ∨ c = '\\' then escaped c
  else if c = '\x00' then escaped '0'
  else if c = '\t' then escaped 't'
  else if c = '\n' then escaped 'n'
  else if c = '\r' then escaped 'r'
  else if unprintable c then escaped 'u' ++ '\x7b' :: Nat.toDigits 16 c.toNat ++ ['\x7d']
  else [c]

def enclosed (quote : Char) (escape : Char → List Char) (text : List Char) : String :=
  String.ofList (quote :: (text.flatMap escape ++ [quote]))

def debugList (texts : List String) : String :=
  "[" ++ ", ".intercalate (texts.map fun text =>
    enclosed '"' (debugEscape '"') text.toList) ++ "]"

end Escapes

/-- A value of a GraphQL error's `extensions`: a JSON string, or any other
value with its rendering. -/
inductive ExtensionValue
  | text (content : String)
  | other (rendered : String)
deriving DecidableEq, Repr

def ExtensionValue.toText : ExtensionValue → String
  | .text content => enclosed '"' jsonEscape content.toList
  | .other rendered => rendered

structure GraphqlError where
  message : String
  extensions : Option (List (String × ExtensionValue))
deriving DecidableEq, Repr

structure GraphqlResponse (D : Type) where
  data : Option D
  errors : Option (List GraphqlError)

/-- `statusText` is the status with its reason, as in `404 Not Found`. -/
structure HttpResponse (D : Type) where
  status : Nat
  statusText : String
  body : Except ReqwestError (GraphqlResponse D)

/-- What each attempt to send one operation meets. -/
abbrev Send (D : Type) := Nat → Except ReqwestError (HttpResponse D)

def answers {D : Type} (data : D) : Send D :=
  fun _ => .ok ⟨200, "200 OK", .ok ⟨some data, none⟩⟩

def unavailable {D : Type} : Send D := fun _ => .ok ⟨503, "503 Service Unavailable", .ok ⟨none, none⟩⟩

/-- A validation error is reported with its other extensions. -/
def errorMessage (error : GraphqlError) : String :=
  match error.extensions with
  | some extensions =>
    if extensions.lookup "category" = some (.text "validation") then
      let rest := (extensions.filter fun e => e.1 ≠ "category").map fun e => e.2.toText
      if rest.isEmpty then error.message
      else error.message ++ "\n    Extensions: " ++ ",".intercalate rest
    else error.message
  | none => error.message

/-- backon: up to `times` further attempts after one that failed. -/
def retrySend {D : Type} (send : Send D) : (times attempt : Nat) →
    Except ReqwestError (HttpResponse D)
  | 0, attempt => send attempt
  | times + 1, attempt =>
    match send attempt with
    | .ok response => .ok response
    | .error _ => retrySend send times (attempt + 1)

/-- `retryStrategy` is the number of retries, when the operation has any. -/
def executeQueryInner {D : Type} (send : Send D) (retryStrategy : Option Nat) :
    Except String D :=
  let response := match retryStrategy with
    | some times => retrySend send times 0
    | none => send 0
  match response with
  | .error error => .error error.toText
  | .ok response =>
    if response.status = 200 then
      match response.body with
      | .error error => .error error.toText
      | .ok body =>
        match body.data, body.errors with
        | some data, _ => .ok data
        | none, some errors =>
          .error ("The following error(s) occurred:\n- " ++
            "\n- ".intercalate (errors.map errorMessage))
        | none, none => .error "no response data"
    else .error ("Received invalid response with status code " ++ response.statusText)

def executeQuery {D : Type} (send : Send D) (retryStrategy : Option Nat) : Except String D :=
  executeQueryInner send retryStrategy

/-- `PlatformExponentialBuilder` retries a mutation six times. -/
def mutationRetries : Nat := 6

/-- The attempts end in a 200 reply that carries the data `d`. -/
def RepliesWith {D : Type} (send : Send D) (times : Nat) (d : D) : Prop :=
  ∃ response body, retrySend send times 0 = .ok response ∧ response.status = 200 ∧
    response.body = .ok body ∧ body.data = some d

theorem executeQuery_ok {D : Type} {send : Send D} {times : Nat} {d : D} :
    executeQuery send (some times) = .ok d ↔ RepliesWith send times d := by
  simp only [executeQuery, executeQueryInner, RepliesWith]
  cases retrySend send times 0 with
  | error e => simp
  | ok response =>
    by_cases ok : response.status = 200
    · cases read : response.body with
      | error e => simp [ok, read]
      | ok body =>
        cases data : body.data with
        | some given => simp [ok, read, data]
        | none => cases errors : body.errors <;> simp [ok, read, data, errors]
    · simp [ok]

/-- The reply's `data.result` is not looked at. -/
def signTransactions (send : Send Bool) : Except String Unit :=
  match executeQuery send (some mutationRetries) with
  | .ok _ => .ok ()
  | .error error => .error error

/-- A `false` result is a business-level rejection. -/
def populateManagedWallets (send : Send Bool) (externalIds : List String) : Except String Unit :=
  match executeQuery send (some mutationRetries) with
  | .ok result =>
    if result then .ok ()
    else .error ("Platform rejected PopulateManagedWallets for " ++
      toString externalIds.length ++ " wallet(s): " ++ debugList externalIds)
  | .error error => .error error

/-- Any 200 reply with data is taken for an acceptance. -/
theorem signTransactions_ok {send : Send Bool} :
    signTransactions send = .ok () ↔
      RepliesWith send mutationRetries true ∨ RepliesWith send mutationRetries false := by
  rw [← executeQuery_ok, ← executeQuery_ok, signTransactions]
  cases executeQuery send (some mutationRetries) with
  | error e => simp
  | ok result => cases result <;> simp

/-- Text of the reply that reports nothing pending. -/
def noTransactionsMsg : String := "No transactions present in the body"

private theorem append_ne_noTransactionsMsg {head : String}
    (first : (head.toList.head?.any fun c => c != 'N') = true) (rest : String) :
    head ++ rest ≠ noTransactionsMsg := by
  intro equal
  have lists := congrArg (fun s : String => s.toList.head?) equal
  have target : noTransactionsMsg.toList.head? = some 'N' := by decide
  obtain ⟨c, hc, other⟩ := (Option.any_eq_true _ _).mp first
  rw [String.toList_append, List.head?_append, hc, target] at lists
  simp only [Option.some_or, Option.some.injEq] at lists
  simp [lists] at other

theorem ReqwestError.toText_ne_noTransactionsMsg (error : ReqwestError) :
    error.toText ≠ noTransactionsMsg := by
  have first : ∀ kind : ReqwestErrorKind,
      (kind.phrase.toList.head?.any fun c => c != 'N') = true := by
    intro kind
    cases kind <;> decide
  exact append_ne_noTransactionsMsg (first error.kind) error.detail

/-- An error of the query itself is never taken for an empty queue. -/
theorem executeQuery_error_ne_noTransactionsMsg {D : Type} (send : Send D)
    (retryStrategy : Option Nat) {error : String}
    (h : executeQuery send retryStrategy = .error error) : error ≠ noTransactionsMsg := by
  simp only [executeQuery, executeQueryInner] at h
  split at h
  · cases h
    exact ReqwestError.toText_ne_noTransactionsMsg _
  · split at h
    · split at h
      · cases h
        exact ReqwestError.toText_ne_noTransactionsMsg _
      · split at h <;> cases h
        · exact append_ne_noTransactionsMsg (by decide) _
        · decide
    · cases h
      exact append_ne_noTransactionsMsg (by decide) _

end Platform

end WalletDaemon
