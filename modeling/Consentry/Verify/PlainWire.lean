import Consentry.Verify.Chunks

/-!
# A wire for small messages

Libraries as concrete functions: little-endian numbers, LEB128 varints, and snappy frames
whose chunks are not compressed, as the encoder writes them for data too small to gain from
it, with their checksums. The other containers are not decoded.
-/

namespace Consentry.Rpc

open Lib

/-! ## Numbers -/

namespace PlainWire

/-- The bytes of a number, the least significant first. -/
def toLE : ℕ → ℕ → Bytes
  | 0, _ => []
  | width + 1, n => .ofNat n :: toLE width (n / 256)

def fromLE : Bytes → ℕ
  | [] => 0
  | b :: bytes => b.toNat + 256 * fromLE bytes

/-- A varint of at most `fuel` bytes. -/
def toVarint : ℕ → ℕ → Bytes
  | 0, _ => []
  | fuel + 1, n => if n < 128 then [.ofNat n] else .ofNat (n % 128 + 128) :: toVarint fuel (n / 128)

def fromVarint : ℕ → Bytes → Except IoError (Option (ℕ × Bytes))
  | 0, _ => .error ⟨.other, "unsigned varint overflow"⟩
  | _ + 1, [] => .ok none
  | fuel + 1, b :: bytes =>
    if b < 128 then .ok (some (b.toNat, bytes))
    else
      match fromVarint fuel bytes with
      | .ok (some (n, rest)) => .ok (some (b.toNat - 128 + 128 * n, rest))
      | r => r

def uvi : Uvi := ⟨toVarint 10, fromVarint 10⟩

@[simp] theorem length_toLE (width n : ℕ) : (toLE width n).length = width := by
  induction width generalizing n with
  | zero => rfl
  | succ width ih => rw [toLE, List.length_cons, ih]

theorem fromLE_toLE {width n : ℕ} (h : n < 256 ^ width) : fromLE (toLE width n) = n := by
  induction width generalizing n with
  | zero =>
    rw [Nat.pow_zero] at h
    rw [toLE, fromLE]
    omega
  | succ width ih =>
    have hbyte : (UInt8.ofNat n).toNat = n % 256 := UInt8.toNat_ofNat'
    rw [toLE, fromLE, hbyte, ih (by rw [Nat.pow_succ] at h; omega)]
    omega

theorem ofNat_lt_iff {n : ℕ} (h : n < 256) : UInt8.ofNat n < 128 ↔ n < 128 := by
  change (UInt8.ofNat n).toNat < 128 ↔ _
  rw [UInt8.toNat_ofNat', Nat.mod_eq_of_lt h]

theorem fromVarint_small {fuel n : ℕ} (h : n < 128) (rest : Bytes) :
    fromVarint (fuel + 1) (.ofNat n :: rest) = .ok (some (n, rest)) := by
  rw [fromVarint, if_pos ((ofNat_lt_iff (by omega)).2 h), UInt8.toNat_ofNat',
    Nat.mod_eq_of_lt (by omega)]

theorem fromVarint_large {fuel n : ℕ} (rest : Bytes) :
    fromVarint (fuel + 1) (.ofNat (n % 128 + 128) :: rest) =
      match fromVarint fuel rest with
      | .ok (some (k, rest)) => .ok (some (n % 128 + 128 * k, rest))
      | r => r := by
  have hlarge : ¬ UInt8.ofNat (n % 128 + 128) < 128 := by
    rw [ofNat_lt_iff (by omega)]
    omega
  rw [fromVarint, if_neg hlarge, UInt8.toNat_ofNat', Nat.mod_eq_of_lt (by omega),
    Nat.add_sub_cancel]

theorem fromVarint_toVarint {fuel n : ℕ} (h : n < 128 ^ (fuel + 1)) (rest : Bytes) :
    fromVarint (fuel + 1) (toVarint (fuel + 1) n ++ rest) = .ok (some (n, rest)) := by
  induction fuel generalizing n with
  | zero =>
    have hsmall : n < 128 := by simpa using h
    rw [toVarint, if_pos hsmall]
    exact fromVarint_small hsmall rest
  | succ fuel ih =>
    rw [toVarint]
    split
    · next hsmall => exact fromVarint_small hsmall rest
    · next hlarge =>
      rw [List.cons_append, fromVarint_large, ih (by rw [Nat.pow_succ] at h; omega)]
      simp only
      rw [Nat.mod_add_div]

/-- A varint is awaited until its last byte. -/
theorem fromVarint_prefix {fuel n : ℕ} {pre post : Bytes} (h : toVarint fuel n = pre ++ post)
    (hpost : post ≠ []) : fromVarint fuel pre = .ok none := by
  induction fuel generalizing n pre with
  | zero => exact absurd (List.append_eq_nil_iff.1 h.symm).2 hpost
  | succ fuel ih =>
    cases pre with
    | nil => rfl
    | cons b pre =>
      rw [toVarint, List.cons_append] at h
      split at h
      · obtain ⟨-, hnil⟩ := List.cons.inj h
        exact absurd (List.append_eq_nil_iff.1 hnil.symm).2 hpost
      · obtain ⟨rfl, hrest⟩ := List.cons.inj h
        rw [fromVarint_large, ih hrest]

/-- An awaited varint is a short prefix. -/
theorem fromVarint_short {fuel : ℕ} {bytes : Bytes} (h : fromVarint fuel bytes = .ok none) :
    bytes.length < fuel := by
  induction fuel generalizing bytes with
  | zero => cases h
  | succ fuel ih =>
    cases bytes with
    | nil => exact Nat.succ_pos fuel
    | cons b bytes =>
      rw [fromVarint] at h
      split at h
      · cases h
      · split at h
        · cases h
        · next hr =>
          have := ih h
          simp only [List.length_cons]
          omega

/-! ## Frames -/

/-- One step of CRC-32C. -/
def crcBit (crc : UInt32) : UInt32 :=
  if crc &&& 1 = 1 then (crc >>> 1) ^^^ 0x82f63b78 else crc >>> 1

def crcByte (crc : UInt32) (b : UInt8) : UInt32 :=
  crcBit (crcBit (crcBit (crcBit (crcBit (crcBit (crcBit (crcBit (crc ^^^ b.toUInt32))))))))

/-- The masked checksum of the frame format. -/
def checksum (data : Bytes) : UInt32 :=
  let crc := data.foldl crcByte 0xffffffff ^^^ 0xffffffff
  ((crc >>> 15) ||| (crc <<< 17)) + 0xa282ead8

def streamIdentifier : Bytes := [0xff, 0x06, 0x00, 0x00, 0x73, 0x4e, 0x61, 0x50, 0x70, 0x59]

/-- The stream identifier and one chunk that is not compressed; nothing for no data. -/
def compress (data : Bytes) : Bytes :=
  if data.isEmpty then []
  else streamIdentifier ++ 0x01 :: toLE 3 (data.length + 4) ++
    toLE 4 (checksum data).toNat ++ data

/-- `split_to`, if there are as many bytes. -/
def splitTo : ℕ → Bytes → Option (Bytes × Bytes)
  | 0, bytes => some ([], bytes)
  | _ + 1, [] => none
  | n + 1, b :: bytes => (splitTo n bytes).map fun (p, rest) => (b :: p, rest)

def tooEarly : IoError := ⟨.unexpectedEof, "failed to fill whole buffer"⟩

/-- Reads data of one chunk. -/
def readExact (input : Bytes) (n : ℕ) : Except IoError Bytes × ℕ :=
  if n = 0 then (.ok [], 0)
  else
    match splitTo 10 input with
    | none => (.error tooEarly, input.length)
    | some (identifier, rest) =>
      if identifier ≠ streamIdentifier then (.error ⟨.other, "stream header"⟩, input.length)
      else
        match splitTo 4 rest with
        | none => (.error tooEarly, input.length)
        | some (header, rest) =>
          if header.head? ≠ some 0x01 then (.error ⟨.other, "unsupported chunk"⟩, input.length)
          else
            match splitTo (fromLE header.tail) rest with
            | none => (.error tooEarly, input.length)
            | some (body, _) =>
              if fromLE (body.take 4) ≠ (checksum (body.drop 4)).toNat then
                (.error ⟨.other, "bad checksum"⟩, input.length)
              else if (body.drop 4).length < n then
                (.error ⟨.other, "more than one chunk"⟩, input.length)
              else (.ok ((body.drop 4).take n), 14 + body.length)

def snappy : Snappy := ⟨compress, readExact⟩

theorem splitTo_append (bytes rest : Bytes) :
    splitTo bytes.length (bytes ++ rest) = some (bytes, rest) := by
  induction bytes with
  | nil => rfl
  | cons b bytes ih =>
    rw [List.length_cons, List.cons_append, splitTo, ih]
    rfl

theorem splitTo_short {n : ℕ} {bytes : Bytes} (h : bytes.length < n) :
    splitTo n bytes = none := by
  induction n generalizing bytes with
  | zero => exact absurd h (Nat.not_lt_zero _)
  | succ n ih =>
    cases bytes with
    | nil => rfl
    | cons b bytes =>
      rw [splitTo, ih (Nat.lt_of_succ_lt_succ h)]
      rfl

/-- What follows the stream identifier. -/
def chunk (data : Bytes) : Bytes :=
  (0x01 :: toLE 3 (data.length + 4)) ++ (toLE 4 (checksum data).toNat ++ data)

theorem compress_of_ne {data : Bytes} (h : data ≠ []) :
    compress data = streamIdentifier ++ chunk data := by
  unfold compress
  rw [if_neg (by simpa using h)]
  simp [chunk]

theorem length_chunk (data : Bytes) : (chunk data).length = data.length + 8 := by
  simp [chunk]
  omega

theorem splitTo_identifier (rest : Bytes) :
    splitTo 10 (streamIdentifier ++ rest) = some (streamIdentifier, rest) := rfl

/-- Behind the stream identifier and the header of the chunk. -/
theorem readExact_header {data : Bytes} (hne : data ≠ []) (hlen : data.length ≤ 65536)
    (input : Bytes) :
    readExact (streamIdentifier ++ ((0x01 :: toLE 3 (data.length + 4)) ++ input)) data.length =
      match splitTo (data.length + 4) input with
      | none => (.error tooEarly, 14 + input.length)
      | some (body, _) =>
        if fromLE (body.take 4) ≠ (checksum (body.drop 4)).toNat then
          (.error ⟨.other, "bad checksum"⟩, 14 + input.length)
        else if (body.drop 4).length < data.length then
          (.error ⟨.other, "more than one chunk"⟩, 14 + input.length)
        else (.ok ((body.drop 4).take data.length), 14 + body.length) := by
  have hpos := List.length_pos_iff.2 hne
  have hheader : splitTo 4 ((0x01 :: toLE 3 (data.length + 4)) ++ input) =
      some (0x01 :: toLE 3 (data.length + 4), input) := by
    have happend := splitTo_append (0x01 :: toLE 3 (data.length + 4)) input
    rwa [List.length_cons, length_toLE] at happend
  have hsize : fromLE (List.tail (0x01 :: toLE 3 (data.length + 4))) = data.length + 4 :=
    fromLE_toLE (by omega)
  have htotal : (streamIdentifier ++ ((0x01 :: toLE 3 (data.length + 4)) ++ input)).length =
      14 + input.length := by
    simp [streamIdentifier]
    omega
  unfold readExact
  rw [if_neg hpos.ne', splitTo_identifier]
  simp only [hheader, hsize, htotal, ne_eq, not_true_eq_false, if_false, List.head?_cons]

/-- The frames of data of one chunk are read back. -/
theorem readExact_compress {data : Bytes} (hlen : data.length ≤ 65536) (rest : Bytes) :
    readExact (compress data ++ rest) data.length = (.ok data, (compress data).length) := by
  by_cases hne : data = []
  · subst hne
    rfl
  · have hbody : (toLE 4 (checksum data).toNat ++ data).length = data.length + 4 := by
      rw [List.length_append, length_toLE, Nat.add_comm]
    have hsplit := splitTo_append (toLE 4 (checksum data).toNat ++ data) rest
    rw [hbody] at hsplit
    have hchecksum : fromLE (toLE 4 (checksum data).toNat) = (checksum data).toNat :=
      fromLE_toLE (checksum data).toNat_lt
    have htake : (toLE 4 (checksum data).toNat ++ data).take 4 =
        toLE 4 (checksum data).toNat := List.take_left' (length_toLE 4 _)
    have hdrop : (toLE 4 (checksum data).toNat ++ data).drop 4 = data :=
      List.drop_left' (length_toLE 4 _)
    have hstream : compress data ++ rest = streamIdentifier ++
        ((0x01 :: toLE 3 (data.length + 4)) ++
          ((toLE 4 (checksum data).toNat ++ data) ++ rest)) := by
      rw [compress_of_ne hne, chunk]
      simp only [List.append_assoc]
    have htotal : (compress data).length = 14 + (data.length + 4) := by
      rw [compress_of_ne hne, List.length_append, length_chunk]
      simp [streamIdentifier]
      omega
    rw [hstream, readExact_header hne hlen, hsplit, htotal]
    simp only [htake, hdrop, hchecksum, hbody, ne_eq, not_true_eq_false, if_false, lt_irrefl,
      List.take_length]

/-- A part of the frames ends too early. -/
theorem readExact_short {data pre post : Bytes} (hlen : data.length ≤ 65536)
    (h : compress data = pre ++ post) (hpost : post ≠ []) :
    readExact pre data.length = (.error tooEarly, pre.length) := by
  have hne : data ≠ [] := by
    rintro rfl
    exact hpost (List.append_eq_nil_iff.1 h.symm).2
  have hpos := List.length_pos_iff.2 hne
  have hpost := List.length_pos_iff.2 hpost
  rw [compress_of_ne hne] at h
  rcases cut_cases h.symm with ⟨r, hr, hidentifier, -⟩ | ⟨pre, rfl, hchunk⟩
  · -- within the stream identifier
    have hshort : pre.length < 10 := by
      have htotal := congrArg List.length hidentifier
      have := List.length_pos_iff.2 hr
      rw [List.length_append] at htotal
      change 10 = _ at htotal
      omega
    unfold readExact
    rw [if_neg hpos.ne', splitTo_short hshort]
  · rcases cut_cases hchunk with ⟨r, hr, hheader, -⟩ | ⟨pre, rfl, hbody⟩
    · -- within the header of the chunk
      have hshort : pre.length < 4 := by
        have htotal := congrArg List.length hheader
        have := List.length_pos_iff.2 hr
        rw [List.length_append, List.length_cons, length_toLE] at htotal
        omega
      unfold readExact
      rw [if_neg hpos.ne', splitTo_identifier]
      simp only [splitTo_short hshort, ne_eq, not_true_eq_false, if_false]
    · -- within its body
      have hshort : pre.length < data.length + 4 := by
        have htotal := congrArg List.length hbody
        rw [List.length_append, List.length_append, length_toLE] at htotal
        omega
      rw [readExact_header hne hlen, splitTo_short hshort]
      simp [streamIdentifier]
      omega

/-- An error comes with the whole input read. -/
theorem readExact_error {input : Bytes} {n k : ℕ} {e : IoError}
    (h : readExact input n = (.error e, k)) : k = input.length := by
  unfold readExact at h
  split at h
  · cases h
  · repeat' split at h
    all_goals
      cases h
    all_goals
      rfl

/-! ## The wire -/

/-- Numbers are little-endian; the data of errors is not changed. -/
def u64 : SszType UInt64 where
  asSszBytes x := toLE 8 x.toNat
  fromSszBytes bytes :=
    if bytes.length = 8 then .ok (.ofNat (fromLE bytes)) else .error "InvalidByteLength"
  sszFixedLen := 8

def errorType : SszType ErrorType where
  asSszBytes err := err.toList
  fromSszBytes bytes :=
    if h : bytes.length ≤ maxErrorLen then .ok ⟨bytes, h⟩ else .error "InvalidListLength"
  sszFixedLen := 4

/-- A container that the messages of this wire do not have. -/
def absent (α : Type) (sszFixedLen : ℕ) : SszType α :=
  ⟨fun _ => [], fun _ => .error "absent", sszFixedLen⟩

def spec : EthSpec := ⟨fun _ => Empty, Unit, Unit, ()⟩

def ssz : Ssz spec where
  u64 := u64
  statusMessage := absent StatusMessage 84
  ping := ⟨fun req => u64.asSszBytes req.data, fun buf => (u64.fromSszBytes buf).map .mk, 8⟩
  blocksByRange := absent OldBlocksByRangeRequest 24
  blockRoots := absent (VariableList Hash256 maxRequestBlocks) 4
  errorType := errorType
  metaDataV1 := absent (MetaDataV1 spec) 16
  metaDataV2 := absent (MetaDataV2 spec) 17
  signedBeaconBlock _ := absent Empty 4

def wire : Wire spec where
  ssz := ssz
  blockSizes := ⟨404, 157756, 157916, 17180027000, 17180027000, by decide⟩
  uvi := uvi
  snappy := snappy

/-- A network on which no fork but the base is scheduled. -/
def forkContext : ForkContext where
  currentFork := .base
  toContextBytes fork := if fork = .base then some #v[1, 2, 3, 4] else none
  fromContextBytes context := if context = #v[1, 2, 3, 4] then some .base else none
  genesisContextBytes := #v[1, 2, 3, 4]

theorem ofNat_fromLE_toLE (x : UInt64) : UInt64.ofNat (fromLE (toLE 8 x.toNat)) = x := by
  have hx : fromLE (toLE 8 x.toNat) = x.toNat := fromLE_toLE x.toNat_lt
  rw [hx, UInt64.ofNat_toNat]

theorem u64_inverts (x : UInt64) : u64.Inverts x := by
  unfold SszType.Inverts u64
  dsimp only
  rw [if_pos (length_toLE 8 _), ofNat_fromLE_toLE]

theorem errorType_inverts (err : ErrorType) : errorType.Inverts err :=
  dif_pos err.length_le

theorem errorTypeMax_wire : wire.errorTypeMax = maxErrorLen := by
  change (List.take maxErrorLen (List.replicate maxErrorLen (0 : UInt8))).length = maxErrorLen
  rw [List.length_take, List.length_replicate, Nat.min_self]

/-- The wire carries data of one chunk. -/
theorem carries {data : Bytes} (hlen : data.length ≤ 65536) : wire.Carries data := by
  refine ⟨rfl, ?_, ?_⟩
  · exact ⟨fun rest => fromVarint_toVarint (by omega) rest, fun _ _ => fromVarint_prefix⟩
  · refine ⟨readExact_compress hlen, fun pre post h hpost =>
      ⟨_, pre.length, le_refl _, readExact_short hlen h hpost⟩, ?_, ?_, ?_⟩
    · change (compress data).length ≤ maxCompressLen data.length
      unfold maxCompressLen
      rw [if_pos (by omega)]
      by_cases hne : data = []
      · subst hne
        exact Nat.zero_le _
      · have hidentifier : streamIdentifier.length = 10 := rfl
        rw [compress_of_ne hne, List.length_append, length_chunk, hidentifier]
        omega
    · rintro rfl
      rfl
    · intro hne
      change 2 ≤ (compress data).length
      rw [compress_of_ne hne, List.length_append, length_chunk]
      omega

end PlainWire

end Consentry.Rpc
