import Dash.Contracts.Impacts
import Dash.Foundation.Expiring
import Dash.Python.Bytes
import Dash.Python.Plain
import Dash.Python.Reencoding

/-! Change contracts: what is signed, how a token is verified, and the guard against replay, for any
number of requests at once.

Times are the finite floats. A token with another float for a time is refused at one check or the
next, and here where the float is read. Which requests reach the guard, and with which times, is decided
by the schedule alone.
-/

set_option autoImplicit false

namespace Dash.Contracts

open Dash.Python Dash.Approvals Dash.Foundation

def TOKEN_PREFIX : String := "dash-change-v1"

def MAX_TOKEN_BYTES : Nat := 24576

def MIN_TTL_SECONDS : Int := 30

def MAX_TTL_SECONDS : Int := 300

structure Platform (F T : Type) extends Runtime F where
  equality : Equality F
  /-- `hashlib.sha256(bytes).hexdigest()` -/
  sha256 : List UInt8 → String
  /-- `hmac.new(secret, bytes, hashlib.sha256).digest()` -/
  hmacSha256 : List UInt8 → List UInt8 → List UInt8
  /-- The decoders of UTF-16 and UTF-32. -/
  decodeWide : List UInt8 → Option String
  /-- `float(value)`; a value that is no finite number raises. -/
  float : Value F → Result T
  /-- The float a time is. -/
  epoch : T → F
  /-- `time + seconds` -/
  later : T → Int → T
  /-- `time - earlier`, unless it is out of range. -/
  between : T → T → Option T
  /-- The time that is a number of seconds. -/
  seconds : Int → T
  /-- `round(time)` -/
  round : T → Int
  /-- `_iso`; a time that is no date raises. -/
  iso : T → Result String

variable {F T : Type}

def permissionError {α : Type} (message : String) : Result α := .error ⟨.permissionError, message⟩

def texts (items : List String) : Value F := .list (items.map .str)

def Impact.value (impact : Impact) : Value F :=
  .object [("scopes", texts impact.scopes), ("backup", .str impact.backup),
    ("reversibility", .str impact.reversibility), ("restartImpact", .str impact.restartImpact),
    ("playerDisruption", .bool impact.playerDisruption), ("mapLifecycle", .bool impact.mapLifecycle),
    ("safeguards", texts impact.safeguards)]

def decodeSegment (text : List Char) : Option (List UInt8) :=
  let padded := text ++ Base64.padding text.length
  let letters := padded.takeWhile (· ≠ '=')
  let pads := padded.dropWhile (· ≠ '=')
  if !text.isEmpty && letters.all (fun char => (Base64.sextet char).isSome) &&
      pads.all (· = '=') && decide (pads.length ≤ 2) then
    Base64.decode text
  else none

/-- `token.split(".")` into three parts. -/
def segments (token : List Char) : Option (List Char × List Char × List Char) :=
  match token.dropWhile (· ≠ '.') with
  | [] => none
  | _ :: rest =>
    match rest.dropWhile (· ≠ '.') with
    | [] => none
    | _ :: third =>
      if '.' ∈ third then none
      else some (token.takeWhile (· ≠ '.'), rest.takeWhile (· ≠ '.'), third)

def required : List String :=
  ["schemaVersion", "governed", "contractId", "issuedAt", "expiresAt", "issuedAtEpoch",
    "expiresAtEpoch", "policyRevision", "principalId", "target", "change", "impact", "warnings"]

/-- `set(contract) == required` -/
def hasRequired (contract : Value F) : Bool :=
  required.all (fun name => (contract.get? name).isSome) &&
    match contract with
    | .dict entries => entries.all fun entry => required.any entry.1.named
    | _ => false

namespace Platform

variable (rt : Platform F T)

def canonical (value : Value F) : Result String := rt.dumps true value

def bodySha256 (body : Value F) : Result String := do
  let text ← rt.canonical body
  .ok (rt.sha256 (utf8 text))

def principalId (principal : Value F) : Result String :=
  let principal := rt.orElse principal (.dict [])
  if !principal.isDict then .error ⟨.attributeError, "object has no attribute 'get'"⟩
  else
    let value := strip (rt.str (rt.orElse (principal.get "id") (.str "")))
    if value = "" ∨ 128 < value.length ∨ hasControl value = true then
      permissionError "change contracts require an authenticated operator identity"
    else .ok value

def policyRevision : Result String := do
  let text ← rt.canonical (.object (IMPACTS.map fun row =>
    let policy := POLICIES.find? fun policy => policy.path = row.1
    (row.1, .object [("risk", .ofOption (policy.map fun policy => policy.risk.text)),
      ("label", .ofOption (policy.map PolicyRow.label)), ("impact", row.2.value)])))
  .ok (rt.sha256 (utf8 text))

def warnings (impact : Impact) (body : Value F) : List String :=
  (if impact.reversibility ∈ ["unknown", "action-dependent"] then
    ["The exact operation may not have an automatic inverse."] else []) ++
  (if impact.mapLifecycle then
    ["This operation can affect game-map lifecycle or restart continuity."] else []) ++
  (if impact.playerDisruption then
    ["This operation can affect an active or returning player."] else []) ++
  (if impact.backup = "none" then
    ["This runtime operation does not create a database backup."] else []) ++
  (if strip (rt.str (rt.orElse (body.get "confirm") (.str ""))) = "" then
    ["No generic confirmation field is present; route-specific validation still applies."] else [])

/-- The arguments of `verify` but the token and the secret. -/
structure Target (F : Type) where
  path : String
  (body principal capability : Value F)

/-- `contract_for`, with the random part of its identifier. -/
def contractFor (target : Target F) (random : String) (now : T) (ttlSeconds : Int) : Result (Value F) := do
  let path := before '?' target.path
  match ← Policies.policyFor rt.toRuntime path target.body with
  | none => .ok (.object [("schemaVersion", .int 1), ("governed", .bool false), ("path", .str path)])
  | some policy => do
    let ttl := max MIN_TTL_SECONDS (min ttlSeconds MAX_TTL_SECONDS)
    match impact? path with
    | none => .error ⟨.keyError, "'" ++ path ++ "'"⟩
    | some impact => do
      let issuedAt ← rt.iso now
      let expiresAt ← rt.iso (rt.later now ttl)
      let revision ← rt.policyRevision
      let principal ← rt.principalId target.principal
      let digest ← rt.bodySha256 target.body
      let action := Policies.action rt.toRuntime target.body
      .ok (.object [("schemaVersion", .int 1), ("governed", .bool true),
        ("contractId", .str ("change-" ++ random)), ("issuedAt", .str issuedAt),
        ("expiresAt", .str expiresAt), ("issuedAtEpoch", .float (rt.epoch now)),
        ("expiresAtEpoch", .float (rt.epoch (rt.later now ttl))),
        ("policyRevision", .str revision), ("principalId", .str principal),
        ("target", .object [("path", .str path), ("capability", .str (rt.str target.capability)),
          ("bodySha256", .str digest), ("action", if action = "" then .none else .str action),
          ("dryRun", .bool (Policies.dryRun rt.toRuntime target.body true))]),
        ("change", .object [("label", .str policy.label), ("risk", .str policy.risk.text)]),
        ("impact", impact.value), ("warnings", texts (rt.warnings impact target.body))])

def tokenOf (secret payload : List UInt8) : String :=
  TOKEN_PREFIX ++ ("." ++ (String.ofList (Base64.encode payload) ++
    ("." ++ String.ofList (Base64.encode (rt.hmacSha256 secret payload)))))

/-- `issue`: the token, unless the request is not governed. -/
def issue (target : Target F) (secret : List UInt8) (random : String) (now : T) (ttlSeconds : Int) :
    Result (Option String) := do
  if secret.length ≠ 32 then
    valueError "change contract signing secret must contain exactly 32 bytes"
  else
    let contract ← rt.contractFor target random now ttlSeconds
    if !rt.truthy (contract.get "governed") then .ok none
    else
      let text ← rt.canonical contract
      let token := rt.tokenOf secret (utf8 text)
      if MAX_TOKEN_BYTES < (utf8 token).length then
        valueError "change contract token exceeds the size limit"
      else .ok (some token)

/-- The payload of a token whose signature is right. -/
def verifySignature (token : String) (secret : List UInt8) : Result (List UInt8) :=
  if MAX_TOKEN_BYTES < (utf8 token).length then
    permissionError "a valid bounded change contract token is required"
  else
    match segments token.toList with
    | some (start, encodedPayload, encodedSignature) =>
      if start ≠ TOKEN_PREFIX.toList then permissionError "change contract token is malformed"
      else
        match decodeSegment encodedPayload, decodeSegment encodedSignature with
        | some payload, some signature =>
          if Base64.encode payload ≠ encodedPayload then
            permissionError "change contract token payload encoding is non-canonical"
          else if Base64.encode signature ≠ encodedSignature then
            permissionError "change contract signature is invalid"
          else if signature.length ≠ 32 ∨ signature ≠ rt.hmacSha256 secret payload then
            permissionError "change contract signature is invalid"
          else .ok payload
        | _, _ => permissionError "change contract token is malformed"
    | none => permissionError "change contract token is malformed"

def comparisons (contract fresh : Value F) (issuedAt expiresAt : String) : List (String × Bool) :=
  let same := fun name => rt.equality.same (contract.get name) (fresh.get name)
  [("policy revision", same "policyRevision"), ("operator", same "principalId"),
    ("target", same "target"), ("risk", same "change"), ("impact", same "impact"),
    ("warnings", same "warnings"),
    ("issue time", rt.equality.same (contract.get "issuedAt") (.str issuedAt)),
    ("expiry time", rt.equality.same (contract.get "expiresAt") (.str expiresAt))]

variable [LinearOrder T]

/-- The checks of `verify` on the contract of a payload. -/
def verifyContract (contract : Value F) (target : Target F) (current : T) : Result (Value F) :=
  if !contract.isDict || !hasRequired contract ||
      !rt.equality.same (contract.get "schemaVersion") (.int 1) ||
      !(match contract.get "governed" with | .bool true => true | _ => false) then
    permissionError "change contract schema is invalid"
  else do
    let issued ← rt.float (contract.get "issuedAtEpoch")
    let expires ← rt.float (contract.get "expiresAtEpoch")
    if rt.later current 10 < issued then
      permissionError "change contract was issued in the future"
    else if expires ≤ current then
      permissionError "change contract has expired; review a fresh impact contract"
    else
      match rt.between expires issued with
      | none => permissionError "change contract lifetime is invalid"
      | some lifetime =>
        if rt.seconds MAX_TTL_SECONDS < lifetime ∨ expires ≤ issued then
          permissionError "change contract lifetime is invalid"
        else do
          let fresh ← rt.contractFor target "" issued (rt.round lifetime)
          let issuedAt ← rt.iso issued
          let expiresAt ← rt.iso expires
          let failed := (rt.comparisons contract fresh issuedAt expiresAt).filter
            fun comparison => !comparison.2
          if failed.isEmpty then .ok contract
          else permissionError ("change contract no longer matches " ++ join ", " (failed.map Prod.fst))

def verify (token : String) (target : Target F) (secret : List UInt8) (current : T) : Result (Value F) :=
  if secret.length ≠ 32 then
    valueError "change contract signing secret must contain exactly 32 bytes"
  else do
    let payload ← rt.verifySignature token secret
    match rt.loadsBytes rt.decodeWide payload with
    | .error _ => permissionError "change contract payload is invalid"
    | .ok contract => rt.verifyContract contract target current

abbrev Consumed (T : Type) := List (String × T)

def isContractId (id : String) : Bool :=
  let suffix := if startsWith "change-" id then id.toList.drop 7 else []
  decide (suffix.length = 32) && suffix.all (· ∈ "0123456789abcdef".toList)

/-- What `consume` reads of a contract before it takes the lock. -/
def reads (contract : Value F) : Result (String × T) :=
  let id := rt.str (rt.orElse (contract.get "contractId") (.str ""))
  if !isContractId id then permissionError "change contract ID is invalid"
  else do
    let expires ← rt.float (rt.orElse (contract.get "expiresAtEpoch") (.int 0))
    .ok (id, expires)

/-- The part of `consume` under the lock. -/
def consume (consumed : Consumed T) (id : String) (expires now : T) : Result Unit × Consumed T :=
  let consumed := consumed.filter fun entry => now < entry.2
  if id ∈ consumed.map Prod.fst then
    (permissionError "change contract was already consumed; review a fresh contract", consumed)
  else (.ok (), consumed ++ [(id, expires)])

end Platform

structure Call (F : Type) where
  token : String
  target : Platform.Target F

inductive Phase (F T : Type) where
  | waiting
  | verified (contract : Value F)
  | clocked (id : String) (expires now : T)
  | done

/-- The next step of a request is made at this time of the clock. -/
structure Turn (T : Type) where
  caller : Nat
  clock : T

structure Server (F T : Type) where
  phase : Nat → Phase F T
  consumed : Platform.Consumed T
  /-- The identifiers of the contracts that `consume` let pass, in their order. -/
  passed : List String

def Server.started (F T : Type) : Server F T := ⟨fun _ => .waiting, [], []⟩

namespace Platform

variable (rt : Platform F T) [LinearOrder T]

def advance (secret : List UInt8) (call : Call F) (clock : T) : Phase F T → Phase F T
  | .waiting =>
    match rt.verify call.token call.target secret clock with
    | .ok contract => .verified contract
    | .error _ => .done
  | .verified contract =>
    match rt.reads contract with
    | .ok (id, expires) => .clocked id expires clock
    | .error _ => .done
  | _ => .done

/-- One step of a request: it verifies its token, it reads the clock for `consume`, or it takes the
lock of the guard with the time it has read. -/
def step (secret : List UInt8) (calls : Nat → Call F) (server : Server F T) (turn : Turn T) : Server F T :=
  let phase := Function.update server.phase turn.caller
    (rt.advance secret (calls turn.caller) turn.clock (server.phase turn.caller))
  match server.phase turn.caller with
  | .clocked id expires now =>
    match consume server.consumed id expires now with
    | (.ok _, consumed) => ⟨phase, consumed, server.passed ++ [id]⟩
    | (.error _, consumed) => { server with phase := phase, consumed := consumed }
  | _ => { server with phase := phase }

def run (secret : List UInt8) (calls : Nat → Call F) (turns : List (Turn T)) : Server F T :=
  turns.foldl (rt.step secret calls) (Server.started F T)

def attempt : Phase F T → Option (Attempt String T)
  | .clocked id expires now => some ⟨some id, expires, now⟩
  | _ => none

/-- The attempts at the guard from here on, in their order. -/
def attempts (secret : List UInt8) (calls : Nat → Call F) (phase : Nat → Phase F T) :
    List (Turn T) → List (Attempt String T)
  | [] => []
  | turn :: rest =>
    (attempt (phase turn.caller)).toList ++ attempts secret calls (Function.update phase turn.caller
        (rt.advance secret (calls turn.caller) turn.clock (phase turn.caller))) rest

end Platform

open List

variable {F T : Type}

namespace Platform

variable (rt : Platform F T) [LinearOrder T]

theorem consume_attend (consumed : Consumed T) (id : String) (expires now : T) :
    (consume consumed id expires now).2 = Expiring.attend consumed ⟨some id, expires, now⟩ ∧
      (consume consumed id expires now).1.isOk = Expiring.passes consumed ⟨some id, expires, now⟩ := by
  rw [consume, Expiring.attend, Expiring.passes, Expiring.purge]
  by_cases known : id ∈ (consumed.filter fun entry => now < entry.2).map Prod.fst
  · simp [known, permissionError, Except.isOk, Except.toBool]
  · simp [known, Except.isOk, Except.toBool]

/-- What one step does: the phase advances, and an attempt is attended to. -/
theorem step_eq (secret : List UInt8) (calls : Nat → Call F) (server : Server F T) (turn : Turn T) :
    rt.step secret calls server turn = ⟨Function.update server.phase turn.caller
          (rt.advance secret (calls turn.caller) turn.clock (server.phase turn.caller)),
        (attempt (server.phase turn.caller)).toList.foldl Expiring.attend server.consumed,
        server.passed ++ Expiring.passed server.consumed (attempt (server.phase turn.caller)).toList⟩ := by
  unfold step
  cases phase : server.phase turn.caller with
  | waiting => simp [attempt, Expiring.passed]
  | verified contract => simp [attempt, Expiring.passed]
  | done => simp [attempt, Expiring.passed]
  | clocked id expires now =>
    obtain ⟨kept, pass⟩ := consume_attend server.consumed id expires now
    cases outcome : consume server.consumed id expires now with
    | mk result consumed =>
      rw [outcome] at kept pass
      subst kept
      -- The identifier is listed exactly when the attempt passes.
      cases result with
      | ok done => simp [attempt, outcome, Expiring.passed, ← pass, Except.isOk, Except.toBool]
      | error why => simp [attempt, outcome, Expiring.passed, ← pass, Except.isOk, Except.toBool]

theorem foldl_passed (secret : List UInt8) (calls : Nat → Call F) (turns : List (Turn T)) (server : Server F T) :
    (turns.foldl (rt.step secret calls) server).passed = server.passed ++
        Expiring.passed server.consumed (rt.attempts secret calls server.phase turns) := by
  induction turns generalizing server with
  | nil => simp [attempts, Expiring.passed]
  | cons turn rest ih =>
    rw [foldl_cons, ih, step_eq, attempts]
    cases attempt (server.phase turn.caller) with
    | none => simp [Expiring.passed]
    | some attempt => simp [Expiring.passed]

/-- Whatever the schedule, a contract is consumed at most once exactly when no request has brought a
time from its expiry on to the guard before, or with, a later attempt at it. -/
theorem contract_consumed_once (secret : List UInt8) (calls : Nat → Call F) (turns : List (Turn T))
    (contractId : String) :
    (rt.run secret calls turns).passed.count contractId ≤ 1 ↔
      Expiring.Covered contractId (rt.attempts secret calls (fun _ => .waiting) turns) := by
  rw [run, foldl_passed]
  exact Expiring.at_most_once contractId _

theorem segments_join {first second third : List Char} (plainFirst : '.' ∉ first)
    (plainSecond : '.' ∉ second) (plainThird : '.' ∉ third) :
    segments (first ++ '.' :: (second ++ '.' :: third)) = some (first, second, third) := by
  obtain ⟨takes, drops⟩ := span_mark plainFirst (second ++ '.' :: third)
  obtain ⟨takesNext, dropsNext⟩ := span_mark plainSecond third
  unfold segments
  rw [takes, drops]
  dsimp only
  rw [takesNext, dropsNext]
  simp [plainThird]

theorem encode_length : ∀ bytes : List UInt8, (Base64.encode bytes).length % 4 ≠ 1
  | [] => by simp [Base64.encode]
  | [_] => by simp [Base64.encode]
  | [_, _] => by simp [Base64.encode]
  | _ :: _ :: _ :: rest => by
    have ih := encode_length rest
    simp only [Base64.encode, length_cons]
    omega

theorem sextet_encoded (bytes : List UInt8) : ∀ char ∈ Base64.encode bytes,
    (Base64.sextet char).isSome = true ∧ char ≠ '=' := by
  intro char member
  obtain ⟨value, small, rfl⟩ := Base64.encode_letters bytes char member
  rw [Base64.sextet_letter small]
  exact ⟨rfl, Base64.letter_ne_pad small⟩

theorem decodeSegment_encode {bytes : List UInt8} (some_ : bytes ≠ []) :
    decodeSegment (Base64.encode bytes) = some bytes := by
  have letters : ∀ char ∈ Base64.encode bytes, decide (char ≠ '=') = true :=
    fun char member => decide_eq_true (sextet_encoded bytes char member).2
  have pads : ∀ count, (List.replicate count '=').takeWhile (· ≠ '=') = [] ∧
      (List.replicate count '=').dropWhile (· ≠ '=') = List.replicate count '=' := by
    intro count
    cases count <;> simp [replicate_succ]
  have short : (4 - (Base64.encode bytes).length % 4) % 4 ≤ 2 := by
    have := encode_length bytes
    omega
  have filled : (Base64.encode bytes).isEmpty = false := by
    cases bytes with
    | nil => exact absurd rfl some_
    | cons first rest =>
      match rest with
      | [] => rfl
      | [_] => rfl
      | _ :: _ :: _ => rfl
  unfold decodeSegment Base64.padding
  dsimp only
  rw [takeWhile_append_of_pos letters, dropWhile_append_of_pos letters, (pads _).1,
    (pads _).2, if_pos, Base64.decode_encode]
  simp only [filled, append_nil, Bool.not_false, Bool.true_and, Bool.and_eq_true,
    all_eq_true, decide_eq_true_eq, length_replicate]
  refine ⟨⟨fun char member => (sextet_encoded bytes char member).1, ?_⟩, short⟩
  exact fun char member => (mem_replicate.mp member).2

variable {chars : List Char}

omit [LinearOrder T] in
theorem tokenOf_chars (secret payload : List UInt8) : (rt.tokenOf secret payload).toList = TOKEN_PREFIX.toList ++ '.' ::
      (Base64.encode payload ++ '.' :: Base64.encode (rt.hmacSha256 secret payload)) := by
  have dot : ".".toList = ['.'] := rfl
  simp [tokenOf, dot]

theorem segments_some {token first second third : List Char} (split : segments token = some (first, second, third)) :
    token = first ++ '.' :: (second ++ '.' :: third) := by
  unfold segments at split
  cases one : token.dropWhile (· ≠ '.') with
  | nil =>
    rw [one] at split
    cases split
  | cons mark rest =>
    rw [one] at split
    dsimp only at split
    cases two : rest.dropWhile (· ≠ '.') with
    | nil =>
      rw [two] at split
      cases split
    | cons other last =>
      rw [two] at split
      simp only [Option.ite_none_left_eq_some, Option.some.injEq, Prod.mk.injEq] at split
      obtain ⟨-, rfl, rfl, rfl⟩ := split
      rw [mark_split two, mark_split one]

omit [LinearOrder T] in
/-- There is one token of a payload. -/
theorem verifySignature_iff {token : String} {secret payload : List UInt8} :
    rt.verifySignature token secret = .ok payload ↔ token = rt.tokenOf secret payload ∧ payload ≠ [] ∧
      (rt.hmacSha256 secret payload).length = 32 ∧ (utf8 token).length ≤ MAX_TOKEN_BYTES := by
  constructor
  · intro verified
    unfold verifySignature at verified
    split at verified
    · cases verified
    next bounded =>
    split at verified
    · next start encodedPayload encodedSignature parts =>
      split at verified
      · cases verified
      next prefixed =>
      split at verified
      · next found signature decoded signed =>
        obtain ⟨payloadText, verified⟩ := result_guard.mp verified
        obtain ⟨signatureText, verified⟩ := result_guard.mp verified
        obtain ⟨right, verified⟩ := result_guard.mp verified
        cases verified
        obtain ⟨size, same⟩ := not_or.mp right
        obtain rfl := not_not.mp same
        refine ⟨String.ext ?_, ?_, not_not.mp size, Nat.not_lt.mp bounded⟩
        · rw [segments_some parts, tokenOf_chars, not_not.mp prefixed, not_not.mp payloadText,
            not_not.mp signatureText]
        · rintro rfl
          rw [← not_not.mp payloadText] at decoded
          cases decoded
      · cases verified
    · cases verified
  · rintro ⟨rfl, filled, digest, bounded⟩
    have signed : rt.hmacSha256 secret payload ≠ [] := by
      intro empty
      rw [empty] at digest
      cases digest
    rw [verifySignature, if_neg (Nat.not_lt.mpr bounded), tokenOf_chars, segments_join (by decide)
      (Base64.encode_no_dot payload) (Base64.encode_no_dot _)]
    simp [decodeSegment_encode filled, decodeSegment_encode signed, digest]

theorem verify_iff {token : String} {target : Target F} {secret : List UInt8} {current : T} {contract : Value F} :
    rt.verify token target secret current = .ok contract ↔ secret.length = 32 ∧ ∃ payload,
      rt.verifySignature token secret = .ok payload ∧ ∃ loaded, rt.loadsBytes rt.decodeWide payload = .ok loaded ∧
        rt.verifyContract loaded target current = .ok contract := by
  unfold verify
  by_cases key : secret.length = 32
  · rw [if_neg (not_not.mpr key), result_bind]
    refine ⟨?_, ?_⟩
    · rintro ⟨payload, signed, rest⟩
      split at rest
      · cases rest
      · next loaded read => exact ⟨key, payload, signed, loaded, read, rest⟩
    · rintro ⟨-, payload, signed, loaded, read, rest⟩
      refine ⟨payload, signed, ?_⟩
      rw [read]
      exact rest
  · rw [if_pos key]
    exact iff_of_false (fun impossible => nomatch impossible) fun right => key right.1

/-- The contract is in force, and what was reviewed in it is what this request compiles to. -/
def InForce (contract : Value F) (target : Target F) (current : T) : Prop :=
  ∃ issued expires lifetime fresh, rt.float (contract.get "issuedAtEpoch") = .ok issued ∧
    rt.float (contract.get "expiresAtEpoch") = .ok expires ∧ issued ≤ rt.later current 10 ∧ current < expires ∧
    rt.between expires issued = some lifetime ∧ lifetime ≤ rt.seconds MAX_TTL_SECONDS ∧ issued < expires ∧
    rt.contractFor target "" issued (rt.round lifetime) = .ok fresh ∧
    ∀ name ∈ ["policyRevision", "principalId", "target", "change", "impact", "warnings"],
      rt.equality.same (contract.get name) (fresh.get name) = true

theorem verifyContract_ok {contract found : Value F} {target : Target F} {current : T}
    (verified : rt.verifyContract contract target current = .ok found) :
    found = contract ∧ rt.InForce contract target current := by
  obtain ⟨-, verified⟩ := result_guard.mp verified
  obtain ⟨issued, started, verified⟩ := result_bind.mp verified
  obtain ⟨expires, ends, verified⟩ := result_bind.mp verified
  obtain ⟨early, verified⟩ := result_guard.mp verified
  obtain ⟨late, verified⟩ := result_guard.mp verified
  cases span : rt.between expires issued with
  | none =>
    rw [span] at verified
    cases verified
  | some lifetime =>
    rw [span] at verified
    obtain ⟨bounded, verified⟩ := result_guard.mp verified
    obtain ⟨long, order⟩ := not_or.mp bounded
    obtain ⟨fresh, compiled, verified⟩ := result_bind.mp verified
    obtain ⟨issuedAt, -, verified⟩ := result_bind.mp verified
    obtain ⟨expiresAt, -, verified⟩ := result_bind.mp verified
    dsimp only at verified
    split at verified
    · next agree =>
      cases verified
      refine ⟨rfl, issued, expires, lifetime, fresh, started, ends, not_lt.mp early, not_le.mp late, span,
        not_lt.mp long, not_le.mp order, compiled, ?_⟩
      have same := filter_eq_nil_iff.mp (isEmpty_iff.mp agree)
      simp only [comparisons, forall_mem_cons, Bool.not_eq_true', Bool.not_eq_false] at same ⊢
      obtain ⟨revision, operator, aim, risk, impact, notes, -⟩ := same
      exact ⟨revision, operator, aim, risk, impact, notes, fun _ impossible => nomatch impossible⟩
    · cases verified

/-- A token that verifies is the only one of its payload, and its contract decides about every use of it.
The contract is in force, and it is the one of the request at hand. -/
theorem verified_tokens (token : String) (target : Target F) (secret : List UInt8) (current : T) :
    match rt.verify token target secret current with
    | .ok contract =>
      (∃ payload, token = rt.tokenOf secret payload ∧ rt.loadsBytes rt.decodeWide payload = .ok contract) ∧
        (∀ other again, rt.verify token other secret again = rt.verifyContract contract other again) ∧
        rt.InForce contract target current
    | .error _ => True := by
  cases verified : rt.verify token target secret current with
  | error why => trivial
  | ok contract =>
    obtain ⟨key, payload, signed, loaded, read, checked⟩ := rt.verify_iff.mp verified
    obtain ⟨rfl, force⟩ := rt.verifyContract_ok checked
    refine ⟨⟨payload, (rt.verifySignature_iff.mp signed).1, read⟩, fun other again => ?_, force⟩
    rw [verify, if_neg (not_not.mpr key), signed]
    change (match rt.loadsBytes rt.decodeWide payload with
      | .error _ => permissionError "change contract payload is invalid"
      | .ok contract => rt.verifyContract contract other again) = _
    rw [read]

end Platform

def workshop : Platform Int Int where
  toRuntime := wholeRuntime
  equality := ⟨fun first second => first = second, fun first second => first = second⟩
  sha256 _ := "digest"
  hmacSha256 _ _ := List.replicate 32 7
  decodeWide _ := none
  float
    | .float value | .int value => .ok value
    | _ => typeError "float() argument must be a string or a real number"
  epoch := id
  later := (· + ·)
  between time earlier := some (time - earlier)
  seconds := id
  round := id
  iso time :=
    .ok (if time = 0 then "1970-01-01T00:00:00+00:00" else "1970-01-01T00:02:00+00:00")

def gmCommand : Platform.Target Int where
  path := "/api/admin/gm/execute"
  body := .object []
  principal := .object [("id", .str "operator")]
  capability := .str "gm"

def signingKey : List UInt8 := List.replicate 32 1

def contractRandom : String := "0123456789abcdef0123456789abcdef"

def documents (items : List String) : Document := .array (items.map .str)

/-- The contract of the command, issued at second zero for two minutes, with its names in order. -/
def gmContract : List (String × Document) := [
  ("change", .object [("label", .str "Execute a generic GM command"), ("risk", .str "standard")]),
  ("contractId", .str ("change-" ++ contractRandom)),
  ("expiresAt", .str "1970-01-01T00:02:00+00:00"),
  ("expiresAtEpoch", .float (workshop.floatText 120)),
  ("governed", .bool true),
  ("impact", .object [("backup", .str "none"), ("mapLifecycle", .bool false),
    ("playerDisruption", .bool true), ("restartImpact", .str "none"),
    ("reversibility", .str "unknown"),
    ("safeguards", documents ["command catalog", "command authentication", "explicit confirmation"]),
    ("scopes", documents ["game-command", "runtime-state"])]),
  ("issuedAt", .str "1970-01-01T00:00:00+00:00"),
  ("issuedAtEpoch", .float (workshop.floatText 0)),
  ("policyRevision", .str "digest"),
  ("principalId", .str "operator"),
  ("schemaVersion", .int 1),
  ("target", .object [("action", .null), ("bodySha256", .str "digest"), ("capability", .str "gm"),
    ("dryRun", .bool true), ("path", .str "/api/admin/gm/execute")]),
  ("warnings", documents ["The exact operation may not have an automatic inverse.",
    "This operation can affect an active or returning player.",
    "This runtime operation does not create a database backup.",
    "No generic confirmation field is present; route-specific validation still applies."])]

def gmText : List Char := (Document.object gmContract).text true

def gmToken : String := workshop.tokenOf signingKey (utf8 (String.ofList gmText))

theorem gmToken_fits : (utf8 gmToken).length ≤ MAX_TOKEN_BYTES := by
  rw [utf8, gmToken, Platform.tokenOf_chars, utf8, String.toList_ofList]
  decide +kernel

theorem gmContract_verified : workshop.verifyContract (workshop.ofDocument (.object gmContract))
    gmCommand 10 = .ok (workshop.ofDocument (.object gmContract)) := by
  rfl

theorem gmToken_issued : workshop.issue gmCommand signingKey contractRandom 0 120 = .ok (some gmToken) := by
  have contract : ∃ value, workshop.contractFor gmCommand contractRandom 0 120 = .ok value ∧
      workshop.truthy (value.get "governed") = true ∧
      workshop.jsonable value = .ok (.object gmContract) :=
    ⟨_, rfl, rfl, rfl⟩
  obtain ⟨value, fresh, governed, written⟩ := contract
  have text : workshop.canonical value = .ok (String.ofList gmText) := by
    rw [Platform.canonical, Runtime.dumps, written]
    rfl
  unfold Platform.issue
  rw [if_neg (by decide)]
  refine result_bind.mpr ⟨value, fresh, ?_⟩
  rw [governed]
  refine result_bind.mpr ⟨_, text, ?_⟩
  exact if_neg (Nat.not_lt.mpr gmToken_fits)

theorem gmToken_verified : workshop.verify gmToken gmCommand signingKey 10 =
    .ok (workshop.ofDocument (.object gmContract)) := by
  have loaded : workshop.loadsBytes workshop.decodeWide (utf8 (String.ofList gmText)) =
      .ok (workshop.ofDocument (.object gmContract)) :=
    workshop.loadsBytes_text _ true _ _
  have filled : utf8 (String.ofList gmText) ≠ [] := by
    rw [utf8, String.toList_ofList]
    decide +kernel
  have signed := (workshop.verifySignature_iff).mpr ⟨rfl, filled, rfl, gmToken_fits⟩
  exact (workshop.verify_iff).mpr ⟨rfl, _, signed, _, loaded, gmContract_verified⟩

def gmRequests : Nat → Call Int := fun _ => ⟨gmToken, gmCommand⟩

def overdue : List (Turn Int) :=
  [⟨0, 10⟩, ⟨1, 10⟩, ⟨0, 120⟩, ⟨1, 120⟩, ⟨0, 120⟩, ⟨1, 120⟩]

theorem gmContract_reads : workshop.reads (workshop.ofDocument (.object gmContract)) =
    .ok ("change-" ++ contractRandom, 120) := by
  rfl

section Overdue

variable [LinearOrder T] {rt : Platform F T} {secret : List UInt8}
  {contract : Value F} {id : String} {expires early : T} {call : Call F}
  (verified : rt.verify call.token call.target secret early = .ok contract)
  (read : rt.reads contract = .ok (id, expires))
include verified read

theorem twice_overdue :
    (rt.run secret (fun _ => call) [⟨0, early⟩, ⟨1, early⟩, ⟨0, expires⟩, ⟨1, expires⟩,
      ⟨0, expires⟩, ⟨1, expires⟩]).passed.count id = 2 := by
  have attempted : rt.attempts secret (fun _ => call) (fun _ => .waiting)
      [⟨0, early⟩, ⟨1, early⟩, ⟨0, expires⟩, ⟨1, expires⟩, ⟨0, expires⟩, ⟨1, expires⟩] =
        [⟨some id, expires, expires⟩, ⟨some id, expires, expires⟩] := by
    simp [Platform.attempts, Platform.attempt, Platform.advance, verified, read]
  rw [Platform.run, Platform.foldl_passed]
  unfold Server.started
  rw [attempted]
  simp [Expiring.passed, Expiring.passes, Expiring.attend, Expiring.purge]

end Overdue

/-- On a clock that does not go back, a contract that was issued is consumed twice. -/
theorem contract_consumed_twice : workshop.issue gmCommand signingKey contractRandom 0 120 = .ok (some gmToken) ∧
      (overdue.map Turn.clock).Pairwise (· ≤ ·) ∧
      (workshop.run signingKey gmRequests overdue).passed.count ("change-" ++ contractRandom) = 2 := by
  refine ⟨gmToken_issued, by decide, ?_⟩
  exact twice_overdue gmToken_verified gmContract_reads

end Dash.Contracts
