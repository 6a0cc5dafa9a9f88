import Dash.Foundation.Expiring
import Dash.Python.Bytes
import Dash.Python.Plain
import Dash.Python.Reencoding

/-! Federated login: signed cookies, the cache of used states, and the start of `complete` up to
the consumption of the state, for any number of requests at once.

The schedule alone decides which calls reach the cache, and with which times. A call that was delayed
brings an old time. What follows in `complete` comes after that and is not modelled.
-/

set_option autoImplicit false

namespace Dash.Federated

open Dash.Python Dash.Foundation

structure Platform (F : Type) extends Runtime F where
  /-- `hmac.new(secret.encode(), body.encode(), hashlib.sha256).digest()` -/
  hmacSha256 : String → String → List UInt8
  /-- The decoders of UTF-16 and UTF-32. -/
  decodeWide : List UInt8 → Option String
  /-- The integer that a float is equal to. -/
  whole : F → Option Int

variable {F : Type}

deriving instance DecidableEq for Key

def permissionError {α : Type} (message : String) : Result α := .error ⟨.permissionError, message⟩

def keyError {α : Type} (name : String) : Result α := .error ⟨.keyError, "'" ++ name ++ "'"⟩

/-- `value.get(name, 0)` as an integer. -/
def intOr (rt : Runtime F) (value : Value F) (name : String) : Result Int :=
  rt.int (getOr value name (.int 0))

def isAscii (text : String) : Bool := text.toList.all fun char => decide (char.toNat < 128)

/-- `hmac.compare_digest(first, second)` of two strings. -/
def compareDigest (first second : String) : Result Bool :=
  if isAscii first && isAscii second then .ok (decide (first = second))
  else typeError "comparing strings with non-ASCII characters is not supported"

/-- `value.split(".", 1)` into two parts. -/
def splitOnce (value : String) : Option (String × String) :=
  match value.toList.dropWhile (· ≠ '.') with
  | [] => none
  | _ :: rest => some (String.ofList (value.toList.takeWhile (· ≠ '.')), String.ofList rest)

namespace Platform

variable (rt : Platform F)

def signature (secret body : String) : String :=
  String.ofList (Base64.encode (rt.hmacSha256 secret body))

def signPayload (payload : Value F) (secret : String) : Result String := do
  let text ← rt.dumps true payload
  let body := String.ofList (Base64.encode (utf8 text))
  .ok (body ++ ("." ++ rt.signature secret body))

/-- `json.loads(unb64u(body))` -/
def loadsBody (body : String) : Result (Value F) :=
  match Base64.decode body.toList with
  | some bytes => rt.loadsBytes rt.decodeWide bytes
  | none => valueError "Invalid base64-encoded string"

def verifyPayload (value secret kind : String) (now : Int) : Result (Value F) :=
  match splitOnce value with
  | none => permissionError "invalid federated-auth cookie"
  | some (body, signature) => do
    let equal ← compareDigest signature (rt.signature secret body)
    if !equal then permissionError "invalid federated-auth cookie signature"
    else
      match rt.loadsBody body with
      | .error _ => permissionError "invalid federated-auth cookie payload"
      | .ok payload =>
        if !payload.isDict then .error ⟨.attributeError, "object has no attribute 'get'"⟩
        else do
          let other := match payload.get "kind" with
            | .str text => decide (text ≠ kind)
            | _ => true
          if other then permissionError "expired or invalid federated-auth cookie"
          else do
            let issued ← intOr rt.toRuntime payload "iat"
            if now + 60 < issued then permissionError "expired or invalid federated-auth cookie"
            else do
              let expires ← intOr rt.toRuntime payload "exp"
              if expires ≤ now then permissionError "expired or invalid federated-auth cookie"
              else .ok payload

/-- `ReplayCache.used` -/
abbrev ReplayCache (F : Type) := List (Key F × Int)

/-- A value as a key of a dictionary, where `True`, `1` and `1.0` are one key; lists and
dictionaries cannot be hashed. -/
def hashed : Value F → Option (Key F)
  | .none => some .none
  | .bool value => some (.int (if value then 1 else 0))
  | .int value => some (.int value)
  | .float value =>
    match rt.whole value with
    | some number => some (.int number)
    | none => some (.float value)
  | .str value => some (.str value)
  | .list _ => none
  | .dict _ => none

variable [DecidableEq F]

/-- `ReplayCache.consume`: what it returns, and what is used afterwards. -/
def consume (used : ReplayCache F) (state expires : Value F) (now : Int) : Result Unit × ReplayCache F :=
  let used := used.filter fun entry => now < entry.2
  match rt.hashed state with
  | none => (typeError "unhashable type", used)
  | some key =>
    if key ∈ used.map Prod.fst then
      (permissionError "federated-auth state was already consumed", used)
    else
      match rt.int expires with
      | .error why => (.error why, used)
      | .ok expires => (.ok (), used ++ [(key, expires)])

def admission (secret cookie state : String) (now : Int) : Result (Value F × Value F) := do
  let flow ← rt.verifyPayload cookie secret "flow" now
  if state = "" then permissionError "federated-auth state mismatch"
  else
    match flow.get? "state" with
    | none => keyError "state"
    | some own => do
      let equal ← compareDigest state (rt.str own)
      if !equal then permissionError "federated-auth state mismatch"
      else
        match flow.get? "exp" with
        | none => keyError "exp"
        | some expires => .ok (own, expires)

end Platform

structure Call where
  (cookie state : String)

inductive Phase (F : Type) where
  | waiting
  | clocked (now : Int)
  | admitted (now : Int) (state expires : Value F)
  | done

/-- The next step of a call is made at this time of the clock. -/
structure Turn where
  caller : Nat
  clock : Int

structure Server (F : Type) where
  phase : Nat → Phase F
  used : Platform.ReplayCache F
  passed : List (Key F)

def Server.started (F : Type) : Server F := ⟨fun _ => .waiting, [], []⟩

namespace Platform

variable (rt : Platform F) [DecidableEq F]

/-- One step of a call: it reads the clock, verifies its cookie at that time, and consumes the state
with that time. -/
def step (secret : String) (calls : Nat → Call) (server : Server F) (turn : Turn) : Server F :=
  match server.phase turn.caller with
  | .waiting =>
    { server with phase := Function.update server.phase turn.caller (.clocked turn.clock) }
  | .clocked now =>
    match rt.admission secret (calls turn.caller).cookie (calls turn.caller).state now with
    | .ok (state, expires) =>
      { server with
        phase := Function.update server.phase turn.caller (.admitted now state expires) }
    | .error _ => { server with phase := Function.update server.phase turn.caller .done }
  | .admitted now state expires =>
    match rt.consume server.used state expires now with
    | (.ok _, used) =>
      ⟨Function.update server.phase turn.caller .done, used, server.passed ++ (rt.hashed state).toList⟩
    | (.error _, used) =>
      { server with phase := Function.update server.phase turn.caller .done, used := used }
  | .done => server

def run (secret : String) (calls : Nat → Call) (turns : List Turn) : Server F :=
  turns.foldl (rt.step secret calls) (Server.started F)

def attempt : Phase F → Option (Attempt (Key F) Int)
  | .admitted now state expires =>
    match rt.int expires with
    | .ok expires => some ⟨rt.hashed state, expires, now⟩
    | .error _ => some ⟨none, 0, now⟩
  | _ => none

def advance (secret : String) (call : Call) (clock : Int) : Phase F → Phase F
  | .waiting => .clocked clock
  | .clocked now =>
    match rt.admission secret call.cookie call.state now with
    | .ok (state, expires) => .admitted now state expires
    | .error _ => .done
  | _ => .done

/-- The attempts at the cache from here on, in their order. -/
def attempts (secret : String) (calls : Nat → Call) (phase : Nat → Phase F) : List Turn → List (Attempt (Key F) Int)
  | [] => []
  | turn :: rest =>
    (rt.attempt (phase turn.caller)).toList ++ attempts secret calls (Function.update phase turn.caller
        (rt.advance secret (calls turn.caller) turn.clock (phase turn.caller))) rest

/-- An expiry that is no number is told apart only after the cache was purged. -/
theorem consume_attend (used : ReplayCache F) (state expires : Value F) (now : Int) :
    ∃ attempt, rt.attempt (.admitted now state expires) = some attempt ∧
      (rt.consume used state expires now).2 = Expiring.attend used attempt ∧
      (rt.consume used state expires now).1.isOk = Expiring.passes used attempt ∧
      (Expiring.passes used attempt → attempt.key = rt.hashed state) := by
  rw [consume, attempt]
  cases rt.int expires with
  | ok limit =>
    refine ⟨_, rfl, ?_⟩
    rw [Expiring.attend, Expiring.passes, Expiring.purge]
    cases rt.hashed state with
    | none => exact ⟨rfl, rfl, fun _ => rfl⟩
    | some key =>
      by_cases known : key ∈ (used.filter fun entry => now < entry.2).map Prod.fst
      · simp [known, permissionError, Except.isOk, Except.toBool]
      · simp [known, Except.isOk, Except.toBool]
  | error why =>
    refine ⟨_, rfl, ?_⟩
    cases rt.hashed state with
    | none => exact ⟨rfl, rfl, (absurd · Bool.false_ne_true)⟩
    | some key =>
      dsimp only
      split <;> exact ⟨rfl, rfl, (absurd · Bool.false_ne_true)⟩

end Platform

open List
open Function (update_self)

namespace Platform

variable (rt : Platform F) [DecidableEq F]

/-- What one step does: the phase advances, and an attempt is attended to. -/
theorem step_eq (secret : String) (calls : Nat → Call) (server : Server F) (turn : Turn) :
    rt.step secret calls server turn = ⟨Function.update server.phase turn.caller
          (rt.advance secret (calls turn.caller) turn.clock (server.phase turn.caller)),
        (rt.attempt (server.phase turn.caller)).toList.foldl Expiring.attend server.used,
        server.passed ++ Expiring.passed server.used (rt.attempt (server.phase turn.caller)).toList⟩ := by
  unfold step advance
  cases phase : server.phase turn.caller with
  | waiting => simp [attempt, Expiring.passed]
  | clocked now =>
    dsimp only
    cases rt.admission secret (calls turn.caller).cookie (calls turn.caller).state now with
    | ok flow => simp [attempt, Expiring.passed]
    | error why => simp [attempt, Expiring.passed]
  | admitted now state expires =>
    obtain ⟨attempt, made, kept, pass, own⟩ := rt.consume_attend server.used state expires now
    rw [made]
    dsimp only
    cases outcome : rt.consume server.used state expires now with
    | mk result used =>
      rw [outcome] at kept pass
      subst kept
      cases result with
      | ok done => simp [Expiring.passed, ← pass, own pass.symm, Except.isOk, Except.toBool]
      | error why => simp [Expiring.passed, ← pass, Except.isOk, Except.toBool]
  | done =>
    have same : Function.update server.phase turn.caller .done = server.phase := by
      rw [← phase, Function.update_eq_self]
    simp [attempt, Expiring.passed, same]

theorem foldl_passed (secret : String) (calls : Nat → Call) (turns : List Turn) (server : Server F) :
    (turns.foldl (rt.step secret calls) server).passed =
      server.passed ++ Expiring.passed server.used (rt.attempts secret calls server.phase turns) := by
  induction turns generalizing server with
  | nil => simp [attempts, Expiring.passed]
  | cons turn rest ih =>
    rw [foldl_cons, ih, step_eq, attempts]
    cases rt.attempt (server.phase turn.caller) with
    | none => simp [Expiring.passed]
    | some attempt => simp [Expiring.passed]

/-- Whatever the schedule, a state is consumed at most once exactly when no call has brought a time
from its expiry on to the cache before a later attempt at it. -/
theorem flow_completed_once (secret : String) (calls : Nat → Call) (turns : List Turn) (state : Key F) :
    (rt.run secret calls turns).passed.count state ≤ 1 ↔
      Expiring.Covered state (rt.attempts secret calls (fun _ => .waiting) turns) := by
  rw [run, foldl_passed]
  exact Expiring.at_most_once state _

/-- The flow that `begin` signs. -/
def flow (now : Int) (state nonce verifier provider issuer : String) : Value F :=
  .object [("kind", .str "flow"), ("iat", .int now), ("exp", .int (now + 600)),
    ("state", .str state), ("nonce", .str nonce), ("verifier", .str verifier),
    ("provider", .str provider), ("issuer", .str issuer)]

def flowDocument (now : Int) (state nonce verifier provider issuer : String) : Document :=
  .object [("exp", .int (now + 600)), ("iat", .int now), ("issuer", .str issuer),
    ("kind", .str "flow"), ("nonce", .str nonce), ("provider", .str provider),
    ("state", .str state), ("verifier", .str verifier)]

omit [DecidableEq F] in
theorem ofDocument_flow (now : Int) (state nonce verifier provider issuer : String) :
    rt.ofDocument (flowDocument now state nonce verifier provider issuer) =
      .object [("exp", .int (now + 600)), ("iat", .int now), ("issuer", .str issuer),
        ("kind", .str "flow"), ("nonce", .str nonce), ("provider", .str provider),
        ("state", .str state), ("verifier", .str verifier)] := by
  simp only [flowDocument, Runtime.ofDocument, Runtime.ofMembers]
  rw [dictOf_named (by simp)]
  rfl

theorem splitOnce_join {body : String} (plain : '.' ∉ body.toList) (rest : String) :
    splitOnce (body ++ ("." ++ rest)) = some (body, rest) := by
  have dot : ".".toList = ['.'] := rfl
  obtain ⟨before, after⟩ := span_mark plain rest.toList
  simp only [splitOnce, String.toList_append, dot, cons_append, nil_append, before, after, String.ofList_toList]

omit [DecidableEq F] in
theorem signature_ascii (secret body : String) : isAscii (rt.signature secret body) = true := by
  rw [isAscii, signature, String.toList_ofList]
  exact all_eq_true.mpr fun char member =>
    decide_eq_true (Base64.encode_ascii _ char member)

def bodyOf (document : Document) : String :=
  String.ofList (Base64.encode (utf8 (String.ofList (document.text true))))

def cookieOf (secret : String) (document : Document) : String :=
  bodyOf document ++ ("." ++ rt.signature secret (bodyOf document))

omit [DecidableEq F] in
theorem loadsBody_bodyOf (member : String × Document) (rest : List (String × Document)) :
    rt.loadsBody (bodyOf (.object (member :: rest))) = .ok (rt.ofDocument (.object (member :: rest))) := by
  rw [loadsBody, bodyOf, String.toList_ofList, Base64.decode_encode]
  exact rt.loadsBytes_text rt.decodeWide true member rest

omit [DecidableEq F] in
/-- A flow that was signed is valid from a minute before it began until it expires. -/
theorem verifyPayload_flow (secret : String) {issued now : Int}
    (state nonce verifier provider issuer : String) (begun : issued ≤ now + 60)
    (open_ : now < issued + 600) :
    rt.verifyPayload (rt.cookieOf secret (flowDocument issued state nonce verifier provider issuer)) secret "flow" now =
      .ok (rt.ofDocument (flowDocument issued state nonce verifier provider issuer)) := by
  have plain : '.' ∉ (bodyOf (flowDocument issued state nonce verifier provider issuer)).toList := by
    rw [bodyOf, String.toList_ofList]
    exact Base64.encode_no_dot _
  have loaded : rt.loadsBody (bodyOf (flowDocument issued state nonce verifier provider issuer)) =
      .ok (rt.ofDocument (flowDocument issued state nonce verifier provider issuer)) :=
    rt.loadsBody_bodyOf _ _
  have early : ¬ now + 60 < issued := by omega
  have late : ¬ issued + 600 ≤ now := by omega
  rw [verifyPayload, cookieOf, splitOnce_join plain]
  refine result_bind.mpr ⟨true, by simp [compareDigest, signature_ascii], ?_⟩
  simp only [Bool.not_true, Bool.false_eq_true, if_false, loaded, ofDocument_flow]
  simp [Value.object, Value.isDict, Value.get, Value.get?, getOr, intOr, Key.named, Runtime.int,
    result_bind, early, late]

omit [DecidableEq F] in
/-- It is admitted with its own state. -/
theorem admit_flow (secret : String) {issued now : Int} {state : String}
    (nonce verifier provider issuer : String) (named : state ≠ "") (ascii : isAscii state = true)
    (begun : issued ≤ now + 60) (open_ : now < issued + 600) :
    rt.admission secret (rt.cookieOf secret (flowDocument issued state nonce verifier provider issuer))
      state now = .ok (.str state, .int (issued + 600)) := by
  rw [admission]
  refine result_bind.mpr ⟨_, rt.verifyPayload_flow secret _ _ _ _ _ begun open_, ?_⟩
  rw [if_neg named, ofDocument_flow]
  simp [Value.object, Value.get?, Key.named, compareDigest, Runtime.str, ascii]

def logins (secret : String) : Nat → Call
  | 2 => ⟨rt.cookieOf secret (flowDocument 600 "s2" "n" "v" "oidc" "i"), "s2"⟩
  | _ => ⟨rt.cookieOf secret (flowDocument 0 "s1" "n" "v" "oidc" "i"), "s1"⟩

def delayed : List Turn :=
  [⟨0, 10⟩, ⟨0, 10⟩, ⟨0, 10⟩, ⟨1, 599⟩, ⟨1, 599⟩, ⟨2, 600⟩, ⟨2, 600⟩, ⟨2, 600⟩, ⟨1, 600⟩]

section

variable {secret : String} {calls : Nat → Call} {phase : Nat → Phase F} {caller : Nat} {clock : Int}
  {rest : List Turn}

omit [DecidableEq F]

theorem attempts_waiting (waits : phase caller = .waiting) : rt.attempts secret calls phase (⟨caller, clock⟩ :: rest) =
      rt.attempts secret calls (Function.update phase caller (.clocked clock)) rest := by
  simp [attempts, waits, attempt, advance]

theorem attempts_clocked {now : Int} {state expires : Value F} (clocked : phase caller = .clocked now)
    (admitted : rt.admission secret (calls caller).cookie (calls caller).state now = .ok (state, expires)) :
    rt.attempts secret calls phase (⟨caller, clock⟩ :: rest) =
      rt.attempts secret calls (Function.update phase caller (.admitted now state expires)) rest := by
  simp [attempts, clocked, attempt, advance, admitted]

theorem attempts_admitted {now expires : Int} {state : Value F}
    (ready : phase caller = .admitted now state (.int expires)) :
    rt.attempts secret calls phase (⟨caller, clock⟩ :: rest) = ⟨rt.hashed state, expires, now⟩ ::
      rt.attempts secret calls (Function.update phase caller .done) rest := by
  simp [attempts, ready, attempt, advance, Runtime.int]

end

omit [DecidableEq F] in
theorem delayed_attempts (secret : String) : rt.attempts secret (rt.logins secret) (fun _ => .waiting) delayed =
      [⟨some (.str "s1"), 600, 10⟩, ⟨some (.str "s2"), 1200, 600⟩, ⟨some (.str "s1"), 600, 599⟩] := by
  have first : rt.admission secret (rt.logins secret 0).cookie (rt.logins secret 0).state 10 = _ :=
    @admit_flow _ rt secret 0 10 "s1" "n" "v" "oidc" "i" (by decide) (by decide) (by decide) (by decide)
  have second : rt.admission secret (rt.logins secret 1).cookie (rt.logins secret 1).state 599 = _ :=
    @admit_flow _ rt secret 0 599 "s1" "n" "v" "oidc" "i" (by decide) (by decide) (by decide) (by decide)
  have third : rt.admission secret (rt.logins secret 2).cookie (rt.logins secret 2).state 600 = _ :=
    @admit_flow _ rt secret 600 600 "s2" "n" "v" "oidc" "i" (by decide) (by decide) (by decide) (by decide)
  rw [delayed, attempts_waiting _ rfl, attempts_clocked _ (update_self ..) first,
    attempts_admitted _ (update_self ..), attempts_waiting _ (by simp),
    attempts_clocked _ (update_self ..) second, attempts_waiting _ (by simp),
    attempts_clocked _ (update_self ..) third,
    attempts_admitted _ (update_self ..),
    @attempts_admitted _ rt _ _ _ _ _ _ 599 600 (.str "s1") (by simp)]
  rfl

theorem delayed_passed (secret : String) :
    (rt.run secret (rt.logins secret) delayed).passed = [.str "s1", .str "s2", .str "s1"] := by
  rw [run, foldl_passed]
  change [] ++ Expiring.passed [] (rt.attempts secret (rt.logins secret) (fun _ => .waiting) delayed) = _
  rw [delayed_attempts]
  simp [Expiring.passed, Expiring.passes, Expiring.attend, Expiring.purge]

end Platform

def plainLogin : Platform FloatText where
  toRuntime := plainRuntime
  hmacSha256 secret body := utf8 (secret ++ body)
  decodeWide _ := none
  whole _ := none

/-- On a clock that does not go back one state is consumed twice. -/
theorem state_consumed_twice : (Platform.delayed.map Turn.clock).Pairwise (· ≤ ·) ∧
      (plainLogin.run "key" (plainLogin.logins "key") Platform.delayed).passed.count (.str "s1") =
        2 := by
  refine ⟨by decide, ?_⟩
  rw [Platform.delayed_passed]
  decide

end Dash.Federated
