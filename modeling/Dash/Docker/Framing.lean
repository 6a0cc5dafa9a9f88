import Mathlib.Algebra.Group.Nat.Defs
import Mathlib.Data.List.Basic

/-! The framings of Docker's responses: chunked bodies, and logs with several streams.

`decode` is `bytes.decode` with replacement. Each loop goes on with less of the body than it had.
-/

set_option autoImplicit false

namespace Dash.Docker

open List

abbrev Bytes : Type := List UInt8

/-- `rest.partition(b"\r\n")`, if there is one. -/
def partition : Bytes → Option (Bytes × Bytes)
  | 13 :: 10 :: rest => some ([], rest)
  | byte :: rest => (partition rest).map fun parts => (byte :: parts.1, parts.2)
  | [] => none

theorem partition_shorter {body line rest : Bytes} (found : partition body = some (line, rest)) :
    rest.length < body.length := by
  fun_induction partition body generalizing line with
  | case1 rest =>
    cases found
    exact Nat.lt_add_of_pos_right Nat.two_pos
  | case2 byte tail _ ih =>
    obtain ⟨parts, inner, same⟩ := Option.map_eq_some_iff.mp found
    cases same
    exact Nat.lt_succ_of_lt (ih inner)
  | case3 => cases found

def digit (byte : UInt8) : Option Nat :=
  if 48 ≤ byte ∧ byte ≤ 57 then some (byte.toNat - 48)
  else if 65 ≤ byte ∧ byte ≤ 70 then some (byte.toNat - 55)
  else if 97 ≤ byte ∧ byte ≤ 102 then some (byte.toNat - 87)
  else none

/-- Digits with single underscores between them; `after` says that a digit was read last. -/
def digits : Bool → Nat → Bytes → Option Nat
  | after, value, [] => if after then some value else none
  | after, value, byte :: rest =>
    if byte = 95 then if after then digits false value rest else none
    else (digit byte).bind fun next => digits true (16 * value + next) rest

def isSpace (byte : UInt8) : Bool := byte = 32 || (9 ≤ byte && byte ≤ 13)

/-- What follows the sign: a number that may start with `0x` and an underscore. -/
def unsigned : Bytes → Option Nat
  | 48 :: 120 :: 95 :: rest | 48 :: 120 :: rest | 48 :: 88 :: 95 :: rest | 48 :: 88 :: rest => digits false 0 rest
  | text => digits false 0 text

/-- `int(text, 16)` -/
def intOf (text : Bytes) : Option Int :=
  match ((text.dropWhile isSpace).reverse.dropWhile isSpace).reverse with
  | 45 :: rest => (unsigned rest).map fun value => -(value : Int)
  | 43 :: rest => (unsigned rest).map Int.ofNat
  | rest => (unsigned rest).map Int.ofNat

/-- The place of an index that counts from the end if it is negative. -/
def place (body : Bytes) (index : Int) : Nat := (if index < 0 then index + body.length else index).toNat

/-- `decode_chunked_body` -/
def decodeChunkedBody (body : Bytes) : Bytes :=
  match _found : partition body with
  | none => []
  | some (line, rest) =>
    match intOf (line.takeWhile fun byte => byte ≠ 59) with
    | none => []
    | some size =>
      if size = 0 then [] else rest.take (place rest size) ++ decodeChunkedBody (rest.drop (place rest (size + 2)))
termination_by body.length
decreasing_by
  have shorter := partition_shorter _found
  rw [length_drop]
  omega

/-- `int.from_bytes(bytes, "big")` -/
def bigEndian (bytes : Bytes) : Nat := bytes.foldl (fun value byte => 256 * value + byte.toNat) 0

/-- The payloads of the frames that are read, and what is left of the body. -/
def readFrames : Bytes → List Bytes × Bytes
  | stream :: x :: y :: z :: a :: b :: c :: d :: rest =>
    if stream ≤ 3 ∧ bigEndian [a, b, c, d] ≤ rest.length then
      let later := readFrames (rest.drop (bigEndian [a, b, c, d]))
      (rest.take (bigEndian [a, b, c, d]) :: later.1, later.2)
    else ([], stream :: x :: y :: z :: a :: b :: c :: d :: rest)
  | rest => ([], rest)
termination_by body => body.length
decreasing_by
  simp only [length_drop, length_cons]
  omega

/-- `decode_docker_log_stream` -/
def decodeDockerLogStream (decode : Bytes → String) (body : Bytes) : String :=
  let frames := readFrames body
  decode (if frames.1 ≠ [] ∧ frames.2 = [] then frames.1.flatten else body)

/-- The number that hexadecimal digits of either case denote. -/
def hexValue (text : Bytes) (value : Nat) : Option Nat :=
  text.foldlM (fun value byte => (digit byte).map (16 * value + ·)) value

/-- The first line of a chunk of the given size, with its extensions. -/
structure Header (size : Nat) where
  (digits extensions : Bytes)
  some_ : digits ≠ []
  value : hexValue digits 0 = some size
  begins : ∀ byte ∈ extensions.head?, byte = 59
  line : ¬ [13, 10] <:+: digits ++ extensions

def Header.bytes {size : Nat} (header : Header size) : Bytes := header.digits ++ header.extensions ++ [13, 10]

structure Chunk where
  data : Bytes
  filled : data ≠ []
  header : Header data.length

def Chunk.bytes (chunk : Chunk) : Bytes := chunk.header.bytes ++ chunk.data ++ [13, 10]

structure Frame where
  stream : Fin 4
  payload : Bytes
  short : payload.length < 2 ^ 32

def Frame.bytes (frame : Frame) : Bytes :=
  UInt8.ofNat frame.stream :: 0 :: 0 :: 0 :: UInt8.ofNat (frame.payload.length / 2 ^ 24) ::
    UInt8.ofNat (frame.payload.length / 2 ^ 16) :: UInt8.ofNat (frame.payload.length / 2 ^ 8) ::
    UInt8.ofNat frame.payload.length :: frame.payload

theorem partition_line {line rest : Bytes} (single : ¬ [13, 10] <:+: line) :
    partition (line ++ 13 :: 10 :: rest) = some (line, rest) := by
  induction line with
  | nil => rfl
  | cons byte tail ih =>
    have later := ih fun inside => single (inside.trans (suffix_cons byte tail).isInfix)
    rw [cons_append, partition, later]
    · rfl
    · rintro other rfl next
      cases tail with
      | nil => cases next
      | cons second tail =>
        obtain ⟨rfl, -⟩ := cons.inj next
        exact single ⟨[], tail, rfl⟩

theorem hexValue_digits {text : Bytes} {start value : Nat} (denotes : hexValue text start = some value) (after : Bool)
    (ends : after = true ∨ text ≠ []) : digits after start text = some value := by
  induction text generalizing start after with
  | nil =>
    obtain rfl := Option.some.inj denotes
    simpa [digits] using ends
  | cons byte rest ih =>
    rw [hexValue, foldlM_cons] at denotes
    obtain ⟨next, mapped, denotes⟩ := Option.bind_eq_some_iff.mp denotes
    obtain ⟨number, read, rfl⟩ := Option.map_eq_some_iff.mp mapped
    have plain : byte ≠ 95 := by
      rintro rfl
      cases read
    rw [digits, if_neg plain, read]
    exact ih denotes true (.inl rfl)

theorem hexValue_mem {text : Bytes} {start value : Nat} (denotes : hexValue text start = some value) :
    ∀ byte ∈ text, ∃ number, digit byte = some number := by
  induction text generalizing start with
  | nil => exact fun _ member => nomatch member
  | cons byte rest ih =>
    rw [hexValue, foldlM_cons] at denotes
    obtain ⟨next, mapped, denotes⟩ := Option.bind_eq_some_iff.mp denotes
    obtain ⟨number, read, -⟩ := Option.map_eq_some_iff.mp mapped
    intro other member
    rcases mem_cons.mp member with rfl | inside
    · exact ⟨number, read⟩
    · exact ih denotes other inside

/-- A digit is neither blank, nor a sign or the mark of a prefix, nor that of an extension. -/
theorem digit_plain {byte : UInt8} (read : ∃ number, digit byte = some number) :
    isSpace byte = false ∧ byte ≠ 59 ∧ byte ≠ 45 ∧ byte ≠ 43 ∧ byte ≠ 120 ∧ byte ≠ 88 := by
  obtain ⟨number, read⟩ := read
  have range : 48 ≤ byte.toNat ∧ byte.toNat ≤ 57 ∨ 65 ≤ byte.toNat ∧ byte.toNat ≤ 70 ∨
      97 ≤ byte.toNat ∧ byte.toNat ≤ 102 := by
    simp only [digit, UInt8.le_iff_toNat_le] at read
    split_ifs at read with decimal upper lower
    · exact .inl decimal
    · exact .inr (.inl upper)
    · exact .inr (.inr lower)
  simp only [isSpace, UInt8.le_iff_toNat_le, ← UInt8.toNat_inj, ne_eq]
  simp
  omega

theorem intOf_digits {text : Bytes} {value : Nat} (some_ : text ≠ []) (denotes : hexValue text 0 = some value) :
    intOf text = some (value : Int) := by
  have plain := fun byte member => digit_plain (hexValue_mem denotes byte member)
  have trimmed {other : Bytes} (part : other ⊆ text) : other.dropWhile isSpace = other := by
    cases other with
    | nil => rfl
    | cons byte rest => simp [(plain byte (part mem_cons_self)).1]
  have read := hexValue_digits denotes false (.inr some_)
  rw [intOf, trimmed (Subset.refl text), trimmed (fun byte member => mem_reverse.mp member), reverse_reverse]
  have number : unsigned text = some value := by
    unfold unsigned
    split
    · exact absurd rfl (plain 120 (by simp)).2.2.2.2.1
    · exact absurd rfl (plain 120 (by simp)).2.2.2.2.1
    · exact absurd rfl (plain 88 (by simp)).2.2.2.2.2
    · exact absurd rfl (plain 88 (by simp)).2.2.2.2.2
    · exact read
  split
  · exact absurd rfl (plain 45 mem_cons_self).2.2.1
  · exact absurd rfl (plain 43 mem_cons_self).2.2.2.1
  · rw [number]
    rfl

theorem decodeChunkedBody_header {size : Nat} (header : Header size) (rest : Bytes) :
    decodeChunkedBody (header.bytes ++ rest) =
      if size = 0 then [] else rest.take size ++ decodeChunkedBody (rest.drop (size + 2)) := by
  obtain ⟨digits, extensions, some_, value, begins, line⟩ := header
  have shape : digits ++ extensions ++ [13, 10] ++ rest = digits ++ extensions ++ 13 :: 10 :: rest := by simp
  have first : (digits ++ extensions).takeWhile (fun byte => byte ≠ 59) = digits := by
    rw [takeWhile_append_of_pos fun byte member => by simpa using (digit_plain (hexValue_mem value byte member)).2.1]
    cases extensions with
    | nil => simp
    | cons byte rest => simp [begins byte rfl]
  rw [Header.bytes, shape, decodeChunkedBody]
  split
  next absent =>
    rw [partition_line line] at absent
    cases absent
  next found =>
    rw [partition_line line] at found
    cases found
    have here : ¬ (size : Int) < 0 := by omega
    have next_ : ¬ (size : Int) + 2 < 0 := by omega
    have after : ((size : Int) + 2).toNat = size + 2 := rfl
    simp only [first, intOf_digits some_ value]
    simp [place, here, next_, after]

theorem decodeChunkedBody_chunks (chunks : List Chunk) (last : Header 0) (trailers : Bytes) :
    decodeChunkedBody (chunks.flatMap Chunk.bytes ++ last.bytes ++ trailers) = chunks.flatMap Chunk.data := by
  induction chunks with
  | nil => exact decodeChunkedBody_header last trailers
  | cons chunk rest ih =>
    have positive : chunk.data.length ≠ 0 := fun none_ => chunk.filled (length_eq_zero_iff.mp none_)
    have shape : (chunk :: rest).flatMap Chunk.bytes ++ last.bytes ++ trailers =
        chunk.header.bytes ++ (chunk.data ++ ([13, 10] ++ (rest.flatMap Chunk.bytes ++ last.bytes ++ trailers))) := by
      simp [Chunk.bytes]
    rw [shape, decodeChunkedBody_header, if_neg positive, take_left, drop_length_add_append]
    exact congrArg _ ih

theorem bigEndian_length {number : Nat} (short : number < 2 ^ 32) : bigEndian [UInt8.ofNat (number / 2 ^ 24),
    UInt8.ofNat (number / 2 ^ 16), UInt8.ofNat (number / 2 ^ 8), UInt8.ofNat number] = number := by
  simp only [bigEndian, foldl_cons, foldl_nil, UInt8.toNat_ofNat']
  omega

theorem readFrames_frames (frames : List Frame) :
    readFrames (frames.flatMap Frame.bytes) = (frames.map Frame.payload, []) := by
  induction frames with
  | nil => simp [readFrames]
  | cons frame rest ih =>
    have stream : UInt8.ofNat frame.stream ≤ 3 := by
      have small := frame.stream.isLt
      rw [UInt8.le_iff_toNat_le, UInt8.toNat_ofNat']
      exact Nat.le_trans (Nat.mod_le ..) (Nat.le_of_lt_succ small)
    rw [flatMap_cons, Frame.bytes]
    simp only [cons_append]
    rw [readFrames, bigEndian_length frame.short, if_pos ⟨stream, by simp⟩, drop_left, take_left, ih]
    rfl

/-- Both decoders invert the framing, and end on every input. -/
theorem decoders_invert (decode : Bytes → String) :
    (∀ (chunks : List Chunk) (last : Header 0) (trailers : Bytes),
      decodeChunkedBody (chunks.flatMap Chunk.bytes ++ last.bytes ++ trailers) = chunks.flatMap Chunk.data) ∧
    ∀ frames : List Frame,
      decodeDockerLogStream decode (frames.flatMap Frame.bytes) = decode (frames.flatMap Frame.payload) := by
  refine ⟨decodeChunkedBody_chunks, fun frames => ?_⟩
  rw [decodeDockerLogStream, readFrames_frames]
  cases frames with
  | nil => rfl
  | cons frame rest => simp [flatMap_def]

end Dash.Docker
