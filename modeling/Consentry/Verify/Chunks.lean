import Consentry.Rpc.Codec

/-!
# Chunks on a stream

What is relied on of the libraries for one piece of data: the varint of its length and its
snappy frames are read back when they are complete, whatever follows, and are awaited before
(`Wire.Carries`). Then **`readChunk_expects`**: the data is read in two stages, the length and
the frames; the codecs add stages in front.
-/

namespace Consentry.Rpc

open Lib

variable {S : EthSpec} {w : Wire S}

/-! ## Laws -/

/-- The ssz library reads a value back. -/
def SszType.Inverts {α : Type} (t : SszType α) (a : α) : Prop :=
  t.fromSszBytes (t.asSszBytes a) = .ok a

theorem SszType.Inverts.read {α β : Type} {t : SszType α} {a : α} (h : t.Inverts a)
    (f : α → β) : t.read f (t.asSszBytes a) = .ok (some (f a)) := by
  unfold SszType.read
  rw [h]

/-- The varint of a number is read back when it is complete, and awaited before. -/
structure Uvi.Inverts (uvi : Uvi) (n : ℕ) : Prop where
  read : ∀ rest, uvi.decode (uvi.encode n ++ rest) = .ok (some (n, rest))
  short : ∀ pre post, uvi.encode n = pre ++ post → post ≠ [] → uvi.decode pre = .ok none

/-- The frames of the data are read back, exactly, when they are complete; a part of them
ends too early. Empty data has no frames, and other data has a stream identifier. -/
structure Snappy.Inverts (snappy : Snappy) (data : Bytes) : Prop where
  read : ∀ rest, snappy.readExact (snappy.compress data ++ rest) data.length =
    (.ok data, (snappy.compress data).length)
  short : ∀ pre post, snappy.compress data = pre ++ post → post ≠ [] →
    ∃ msg n, n ≤ pre.length ∧
      snappy.readExact pre data.length = (.error ⟨.unexpectedEof, msg⟩, n)
  length_le : (snappy.compress data).length ≤ maxCompressLen data.length
  empty : data = [] → snappy.compress data = []
  long : data ≠ [] → 2 ≤ (snappy.compress data).length

/-- The libraries carry the data. -/
structure Wire.Carries (w : Wire S) (data : Bytes) : Prop where
  awaits : w.uvi.decode [] = .ok none
  length : w.uvi.Inverts data.length
  frames : w.snappy.Inverts data

theorem Wire.Carries.length_ne_nil {data : Bytes} (h : w.Carries data) :
    w.uvi.encode data.length ≠ [] := by
  intro hnil
  have hread := h.length.read []
  rw [hnil, List.append_nil, h.awaits] at hread
  cases hread

/-! ## Writing a chunk -/

theorem RpcLimits.isOutOfBounds_eq_false {limits : RpcLimits} {length maxRpcSize : ℕ}
    (hmin : limits.min ≤ length) (hmax : length ≤ limits.max) (hsize : length ≤ maxRpcSize) :
    limits.isOutOfBounds length maxRpcSize = false := by
  unfold isOutOfBounds
  rw [decide_eq_false (by omega), decide_eq_false (by omega)]
  rfl

theorem writeChunk_append (w : Wire S) (bytes dst : Bytes) :
    writeChunk w bytes dst = dst ++ writeChunk w bytes [] := by
  simp only [writeChunk, List.nil_append, List.append_assoc]

/-- What an encoder has written, if the data is within its limit. -/
theorem writeChunk_of_ok {limit : ℕ} {err : RPCError} {data dst past bytes : Bytes}
    (h : (if limit < data.length then (.error err, dst) else (.ok (), writeChunk w data past) :
      Except RPCError Unit × Bytes) = (.ok (), bytes)) :
    data.length ≤ limit ∧ bytes = past ++ writeChunk w data [] := by
  split at h
  · cases h
  · next hle =>
    obtain ⟨-, rfl⟩ := Prod.mk.inj h
    exact ⟨not_lt.1 hle, writeChunk_append w data past⟩

theorem Wire.Carries.writeChunk_ne_nil {data : Bytes} (h : w.Carries data) :
    writeChunk w data [] ≠ [] := by
  unfold writeChunk
  simp [h.length_ne_nil]

/-- The chunk of data that is not empty has two bytes at least. -/
theorem Wire.Carries.two_le_writeChunk {data : Bytes} (h : w.Carries data) (hne : data ≠ []) :
    2 ≤ (writeChunk w data []).length := by
  have hlong := h.frames.long hne
  simp only [writeChunk, List.length_append]
  omega

/-! ## Reading a chunk -/

section

variable {snappy : Snappy} {data : Bytes}

theorem readFrames_append (h : snappy.Inverts data) (rest : Bytes) :
    readFrames snappy data.length (snappy.compress data ++ rest) =
      (.ok (some data), none, rest) := by
  unfold readFrames
  rw [List.take_append, List.take_of_length_le h.length_le, h.read]
  simp only [List.drop_left]

theorem readFrames_short (h : snappy.Inverts data) {pre post : Bytes}
    (hframes : snappy.compress data = pre ++ post) (hpost : post ≠ []) :
    readFrames snappy data.length pre = (.ok none, some data.length, pre) := by
  obtain ⟨msg, n, hn, hread⟩ := h.short pre post hframes hpost
  have hlen : pre.length < maxCompressLen data.length := by
    have hle := h.length_le
    have hpos := List.length_pos_iff.2 hpost
    rw [hframes, List.length_append] at hle
    omega
  unfold readFrames
  rw [List.take_of_length_le hlen.le, hread]
  simp only [handleError]
  rw [if_neg (by omega)]

end

/-- **A chunk is read in two stages**: its length and its frames. -/
theorem readChunk_expects {data : Bytes} {outOfBounds : ℕ → Option RPCError} {m : ℕ}
    (hdata : w.Carries data) (hbounds : outOfBounds data.length = none) (hm : m ≤ 2) :
    Expects (readChunk w outOfBounds) data none m none (writeChunk w data []) := by
  have hlast : Expects (readChunk w outOfBounds) data none m (some data.length)
      (w.snappy.compress data) := by
    refine .last (fun pre post hframes hpost => ?_) fun rest => ?_
    · simp only [readChunk, handleLength, hbounds]
      exact readFrames_short hdata.frames hframes hpost
    · simp only [readChunk, handleLength, hbounds]
      exact readFrames_append hdata.frames rest
  refine .header (fun pre post hlength hpost => ?_) (fun rest => ?_) ?_ hlast
  · rw [List.nil_append] at hlength
    simp only [readChunk, handleLength, hdata.length.short pre post hlength hpost]
  · simp only [readChunk, handleLength, List.nil_append, hdata.length.read rest]
  · by_cases hempty : data = []
    · exact .inl (hdata.frames.empty hempty)
    · exact .inr (hm.trans (hdata.frames.long hempty))

section

variable {γ α : Type}

/-- The result of a decoder that keeps the length of its chunk and makes an item of the
data. -/
def ofChunk (setLen : Option ℕ → γ) (item : γ → Bytes → Except RPCError (Option α) × γ) :
    Except RPCError (Option Bytes) × Option ℕ × Bytes →
      Except RPCError (Option α) × γ × Bytes
  | (.error e, len, src) => (.error e, setLen len, src)
  | (.ok none, len, src) => (.ok none, setLen len, src)
  | (.ok (some buf), len, src) =>
    let (r, c) := item (setLen len) buf
    (r, c, src)

/-- **An item is read from its chunk.** -/
theorem expects_chunk {data : Bytes} {outOfBounds : ℕ → Option RPCError} {m : ℕ}
    {decode : Decoder γ UInt8 RPCError α} {a : α} {done : γ} (hdata : w.Carries data)
    (hbounds : outOfBounds data.length = none) (hm : m ≤ 2) (setLen : Option ℕ → γ)
    (item : γ → Bytes → Except RPCError (Option α) × γ)
    (hcall : ∀ len src,
      decode (setLen len) src = ofChunk setLen item (readChunk w outOfBounds len src))
    (hitem : item (setLen none) data = (.ok (some a), done)) :
    Expects decode a done m (setLen none) (writeChunk w data []) := by
  refine (readChunk_expects hdata hbounds hm).map setLen (ofChunk setLen item) hcall
    (fun len src => rfl) fun src => ?_
  rw [ofChunk, hitem]

end

end Consentry.Rpc
