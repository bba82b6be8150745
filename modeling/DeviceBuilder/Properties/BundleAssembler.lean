import DeviceBuilder.Helpers.PeerLinkBundle
import Mathlib.Data.List.Range
import Mathlib.Tactic.Ring

/-!
# The bundle assembler over the wire format

What `chunk_bundle` cuts, an assembler puts together again; and whatever calls an
assembler takes without raising, what it returns is what its header announced.

* `Assembled`: the assembler after some chunks. `Assembled.feed`, `Assembled.finalise`
  are its step lemmas, `assembled_of_runCalls` the run lemma.
* `feedAll_chunkBundleIter`: the chunks of a payload are all taken.
-/

namespace DeviceBuilder

/-- SHA-256 in hexadecimal, and `str.lower`. -/
structure Digest where
  hex : List UInt8 → String
  lower : String → String
  lower_hex : ∀ data, lower (hex data) = hex data

/-- `encode_chunk` and `decode_chunk`. -/
structure ChunkCodec (τ : Type*) where
  encode : List UInt8 → τ
  decode : τ → Option (List UInt8)
  decode_encode : ∀ raw, decode (encode raw) = some raw

inductive AssemblerCall
  | feed (chunkIndex : ℤ) (raw : List UInt8) (isLast : Bool)
  | finalise

/-- The chunk that a call feeds. -/
def AssemblerCall.chunk : AssemblerCall → Option (ℤ × List UInt8 × Bool)
  | feed i raw isLast => some (i, raw, isLast)
  | finalise => none

namespace BundleAssembler

/-- Calls one after another; fails where `feed` raises. -/
def runCalls (sha256 : List UInt8 → String) (a : BundleAssembler) :
    List AssemblerCall → Option BundleAssembler
  | [] => some a
  | .feed i raw isLast :: calls =>
    match a.feed i raw isLast with
    | (none, a) => runCalls sha256 a calls
    | (some _, _) => none
  | .finalise :: calls => runCalls sha256 (a.finalise sha256).2 calls

/-- Chunks as they come over the wire. -/
def feedAll {τ : Type*} (decode : τ → Option (List UInt8)) (a : BundleAssembler) :
    List (ℤ × τ × Bool) → Option BundleAssembler
  | [] => some a
  | (i, text, isLast) :: chunks =>
    match decode text with
    | some raw =>
      match a.feed i raw isLast with
      | (none, a) => feedAll decode a chunks
      | (some _, _) => none
    | none => none

end BundleAssembler

/-- The payload of chunks. -/
def payload (chunks : List (ℤ × List UInt8 × Bool)) : List UInt8 :=
  (chunks.map fun c => c.2.1).flatten

variable {sha256 : List UInt8 → String} {a b : BundleAssembler}
  {chunks : List (ℤ × List UInt8 × Bool)} {calls : List AssemblerCall}

/-- An assembler for a header that has taken these chunks. -/
structure Assembled (sha256 : List UInt8 → String) (totalBytes numChunks : ℤ) (hex : String)
    (chunks : List (ℤ × List UInt8 × Bool)) (a : BundleAssembler) : Prop where
  header : a.totalBytes = totalBytes ∧ a.numChunks = numChunks ∧ a.sha256Hex = hex
  next : a.nextIndex = chunks.length
  indices : chunks.map (·.1) = (List.range chunks.length).map fun i : ℕ => (i : ℤ)
  lasts : chunks.map (·.2.2) = (List.range chunks.length).map fun i : ℕ =>
    decide ((i : ℤ) + 1 = numChunks)
  closed : a.closed = true ↔ (chunks.length : ℤ) = numChunks
  size : ((payload chunks).length : ℤ) ≤ totalBytes
  /-- The payload stands in the buffer, or was returned. -/
  buffer : a.result = none ∧ a.buf = payload chunks ∨
    a.result = some (payload chunks) ∧ a.closed = true ∧
      ((payload chunks).length : ℤ) = totalBytes ∧ sha256 (payload chunks) = hex

theorem payload_append (c d : List (ℤ × List UInt8 × Bool)) :
    payload (c ++ d) = payload c ++ payload d := by
  rw [payload, payload, payload, List.map_append, List.flatten_append]

theorem assembled_create {totalBytes numChunks maxTotalBytes : ℤ} {hex : String}
    (h : BundleAssembler.create totalBytes numChunks hex maxTotalBytes = .ok a) :
    Assembled sha256 totalBytes numChunks hex [] a ∧ totalBytes ≤ maxTotalBytes := by
  unfold BundleAssembler.create at h
  split_ifs at h with h1 h2 h3
  cases h
  refine ⟨⟨⟨rfl, rfl, rfl⟩, rfl, rfl, rfl, ?_, ?_, Or.inl ⟨rfl, rfl⟩⟩, not_lt.1 h3⟩
  · constructor
    · nofun
    · intro h
      rw [List.length_nil] at h
      omega
  · show (0 : ℤ) ≤ totalBytes
    omega

/-- What `feed` checks, and what it does. -/
theorem feed_spec {i : ℤ} {raw : List UInt8} {isLast : Bool}
    (h : a.feed i raw isLast = (none, b)) :
    a.closed = false ∧ i = a.nextIndex ∧ (a.buf.length + raw.length : ℤ) ≤ a.totalBytes ∧
      isLast = decide (a.nextIndex + 1 = a.numChunks) ∧
      b = { a with buf := a.buf ++ raw, nextIndex := a.nextIndex + 1, closed := isLast } := by
  unfold BundleAssembler.feed at h
  split at h
  · cases h
  next hclosed =>
  split at h
  · cases h
  next hidx =>
  split at h
  · cases h
  next hsize =>
  dsimp only at h
  split at h
  · cases h
  next hlast =>
  have hopen : a.closed = false := Bool.eq_false_iff.2 hclosed
  refine ⟨hopen, not_not.1 hidx, not_lt.1 hsize, not_not.1 hlast, ?_⟩
  cases isLast with
  | true =>
    rw [if_pos rfl] at h
    exact (Prod.mk.inj h).2.symm
  | false =>
    rw [if_neg Bool.false_ne_true] at h
    rw [← (Prod.mk.inj h).2, hopen]

section

variable {totalBytes numChunks : ℤ} {hex : String}

/-- **A chunk that is taken** is the next one, and the last one if it says so. -/
theorem Assembled.feed (h : Assembled sha256 totalBytes numChunks hex chunks a) {i : ℤ}
    {raw : List UInt8} {isLast : Bool} (hf : a.feed i raw isLast = (none, b)) :
    Assembled sha256 totalBytes numChunks hex (chunks ++ [(i, raw, isLast)]) b := by
  obtain ⟨⟨ht, hn, hs⟩, hnext, hidx, hlast, hclosed, -, hbuf⟩ := h
  obtain ⟨hopen, hi, hroom, hl, rfl⟩ := feed_spec hf
  have hbuf' : a.result = none ∧ a.buf = payload chunks := by
    rcases hbuf with hbuf | ⟨-, hc, -⟩
    · exact hbuf
    · rw [hopen] at hc
      cases hc
  have hpay : payload (chunks ++ [(i, raw, isLast)]) = payload chunks ++ raw := by
    rw [payload_append]
    exact congrArg (payload chunks ++ ·) (List.append_nil raw)
  have hlen : (chunks ++ [(i, raw, isLast)]).length = chunks.length + 1 := by
    rw [List.length_append, List.length_singleton]
  rw [hnext, hn] at hl
  refine ⟨⟨ht, hn, hs⟩, ?_, ?_, ?_, ?_, ?_, Or.inl ⟨hbuf'.1, ?_⟩⟩
  · rw [hlen, hnext]
    push_cast
    rfl
  · rw [hlen, List.map_append, List.range_succ, List.map_append, hidx, hi, hnext]
    rfl
  · rw [hlen, List.map_append, List.range_succ, List.map_append, hlast, hl]
    rfl
  · rw [hlen, hl, decide_eq_true_iff]
    push_cast
    rfl
  · rw [hpay, List.length_append, ← ht]
    rw [hbuf'.2] at hroom
    push_cast
    exact hroom
  · rw [hpay, hbuf'.2]

/-- A call of `finalise` changes nothing that was taken. What it returns is what the header
announced. -/
theorem Assembled.finalise (h : Assembled sha256 totalBytes numChunks hex chunks a) :
    Assembled sha256 totalBytes numChunks hex chunks (a.finalise sha256).2 ∧
      ∀ data, (a.finalise sha256).1 = .ok data →
        data = payload chunks ∧ (chunks.length : ℤ) = numChunks ∧
          ((payload chunks).length : ℤ) = totalBytes ∧ sha256 (payload chunks) = hex := by
  have hall := h
  obtain ⟨⟨ht, hn, hs⟩, hnext, hidx, hlast, hclosed, hsize, hbuf⟩ := h
  unfold BundleAssembler.finalise
  rcases hbuf with ⟨hr, hb⟩ | ⟨hr, hc, hlen, hsha⟩
  · rw [hr]
    dsimp only
    split
    · exact ⟨hall, nofun⟩
    next hc =>
    split
    · exact ⟨hall, nofun⟩
    next hlen =>
    split
    · exact ⟨hall, nofun⟩
    next hsha =>
    have hc : a.closed = true := not_not.1 hc
    rw [not_not, hb, ht] at hlen
    rw [not_not, hb, hs] at hsha
    refine ⟨⟨⟨ht, hn, hs⟩, hnext, hidx, hlast, hclosed, hsize,
      Or.inr ⟨congrArg some hb, hc, hlen, hsha⟩⟩, fun data hd => ?_⟩
    cases hd
    exact ⟨hb, hclosed.1 hc, hlen, hsha⟩
  · rw [hr]
    dsimp only
    refine ⟨hall, fun data hd => ?_⟩
    cases hd
    exact ⟨rfl, hclosed.1 hc, hlen, hsha⟩

/-- **A run of calls** leaves the assembler of the chunks it took. -/
theorem Assembled.runCalls (h : Assembled sha256 totalBytes numChunks hex chunks a)
    (hrun : a.runCalls sha256 calls = some b) :
    Assembled sha256 totalBytes numChunks hex
      (chunks ++ calls.filterMap AssemblerCall.chunk) b := by
  induction calls generalizing a chunks with
  | nil =>
    cases hrun
    rwa [List.filterMap_nil, List.append_nil]
  | cons call calls ih =>
    cases call with
    | feed i raw isLast =>
      rw [BundleAssembler.runCalls] at hrun
      cases hf : a.feed i raw isLast with
      | mk e a' =>
        rw [hf] at hrun
        cases e with
        | some e => cases hrun
        | none =>
          have hnext := ih (h.feed hf) hrun
          rwa [List.append_assoc] at hnext
    | finalise => exact ih h.finalise.1 hrun

end

/-! ### The chunks of a payload -/

theorem chunkBundleIter_nil (size : ℕ) (index : ℤ) : chunkBundleIter size index [] = [] := by
  rw [chunkBundleIter, dif_pos (Or.inl rfl)]

theorem chunkBundleIter_cons {size : ℕ} {data : List UInt8} (index : ℤ) (hd : data ≠ [])
    (hs : size ≠ 0) :
    chunkBundleIter size index data = (index, data.take size, decide (data.length ≤ size)) ::
      chunkBundleIter size (index + 1) (data.drop size) := by
  rw [chunkBundleIter, dif_neg (not_or.2 ⟨hd, hs⟩)]

theorem feed_of_fits {raw : List UInt8} {isLast : Bool} (hopen : a.closed = false)
    (hroom : (a.buf.length + raw.length : ℤ) ≤ a.totalBytes)
    (hlast : isLast = decide (a.nextIndex + 1 = a.numChunks)) :
    a.feed a.nextIndex raw isLast = (none,
      { a with buf := a.buf ++ raw, nextIndex := a.nextIndex + 1, closed := isLast }) := by
  unfold BundleAssembler.feed
  rw [hopen, if_neg Bool.false_ne_true, if_neg (not_not.2 rfl), if_neg (not_lt.2 hroom)]
  dsimp only
  rw [if_neg (not_not.2 hlast)]
  cases isLast with
  | true => rfl
  | false => rw [if_neg Bool.false_ne_true]

/-- **The chunks of what is left of a payload** are all taken. -/
theorem feedAll_chunkBundleIter {τ : Type*} (codec : ChunkCodec τ) {size : ℕ} (hs : size ≠ 0)
    (data : List UInt8) {index : ℤ} (hindex : a.nextIndex = index) (hd : data ≠ [])
    (hopen : a.closed = false) (hroom : (a.buf.length + data.length : ℤ) = a.totalBytes)
    (hcount : index + (chunkBundleIter size index data).length = a.numChunks) :
    a.feedAll codec.decode ((chunkBundleIter size index data).map
        fun c => (c.1, codec.encode c.2.1, c.2.2)) =
      some { a with buf := a.buf ++ data, nextIndex := a.numChunks, closed := true } := by
  induction hn : data.length using Nat.strong_induction_on generalizing data a index with
  | _ n ih =>
    subst hn hindex
    rw [chunkBundleIter_cons _ hd hs] at hcount ⊢
    rw [List.length_cons] at hcount
    rw [List.map_cons, BundleAssembler.feedAll, codec.decode_encode]
    dsimp only
    by_cases hlast : data.length ≤ size
    · -- the last chunk: nothing is left
      have hrest : data.drop size = [] := List.drop_eq_nil_of_le hlast
      have hall : data.take size = data := List.take_of_length_le hlast
      rw [hrest, chunkBundleIter_nil, List.length_nil] at hcount
      have hcount' : a.nextIndex + 1 = a.numChunks := by
        push_cast at hcount
        omega
      rw [hall, hrest, chunkBundleIter_nil, feed_of_fits hopen hroom.le
        (by rw [decide_eq_true hlast, decide_eq_true hcount'])]
      dsimp only
      rw [List.map_nil, BundleAssembler.feedAll, decide_eq_true hlast, hcount']
    · have hrest : data.drop size ≠ [] := by
        intro hnil
        have hlen := congrArg List.length hnil
        rw [List.length_drop, List.length_nil] at hlen
        omega
      have htake : (data.take size).length = size := by
        rw [List.length_take]
        omega
      have hdrop : (data.drop size).length = data.length - size := List.length_drop
      have hmore : a.nextIndex + 1 ≠ a.numChunks := by
        rw [chunkBundleIter_cons _ hrest hs, List.length_cons] at hcount
        push_cast at hcount
        omega
      rw [feed_of_fits hopen (by rw [htake]; omega)
        (by rw [decide_eq_false hlast, decide_eq_false hmore])]
      dsimp only
      rw [decide_eq_false hlast]
      have hstep := ih (data.drop size).length (by omega) (data.drop size)
        (a := { a with
          buf := a.buf ++ data.take size, nextIndex := a.nextIndex + 1, closed := false })
        rfl hrest rfl ?_ ?_ rfl
      · rw [hstep, List.append_assoc, List.take_append_drop]
      · dsimp only
        rw [List.length_append, htake, hdrop]
        push_cast
        omega
      · dsimp only
        push_cast at hcount
        omega

/-! ### Both directions -/

/-- **The assembler over the wire format.** The chunks of a payload within the cap give it back;
and what an assembler returns after calls of which no `feed` raised is the payload of the chunks
that were fed, as its header announced them. -/
theorem bundle_assembler (digest : Digest) {τ : Type*} (codec : ChunkCodec τ) :
    (∀ (data : List UInt8) (chunkSize maxTotalBytes : ℤ), data ≠ [] →
      (data.length : ℤ) ≤ maxTotalBytes → 0 < chunkSize →
      ∃ chunks a b, chunkBundle data chunkSize = some chunks ∧
        BundleAssembler.create data.length chunks.length (digest.lower (digest.hex data))
          maxTotalBytes = .ok a ∧
        a.feedAll codec.decode (chunks.map fun c => (c.1, codec.encode c.2.1, c.2.2)) = some b ∧
        (b.finalise digest.hex).1 = .ok data) ∧
    ∀ (totalBytes numChunks maxTotalBytes : ℤ) (sha256Hex : String)
      (calls : List AssemblerCall) (a b : BundleAssembler) (data : List UInt8),
      BundleAssembler.create totalBytes numChunks (digest.lower sha256Hex) maxTotalBytes = .ok a →
      a.runCalls digest.hex calls = some b → (b.finalise digest.hex).1 = .ok data →
      ∃ chunks, chunks = calls.filterMap AssemblerCall.chunk ∧ (chunks.length : ℤ) = numChunks ∧
        chunks.map (·.1) = (List.range chunks.length).map (fun i : ℕ => (i : ℤ)) ∧
        chunks.map (·.2.2) =
          (List.range chunks.length).map (fun i => decide (i + 1 = chunks.length)) ∧
        data = payload chunks ∧ (data.length : ℤ) = totalBytes ∧
        (∀ front, front <+: chunks → ((payload front).length : ℤ) ≤ maxTotalBytes) ∧
        digest.hex data = digest.lower sha256Hex := by
  refine ⟨fun data chunkSize maxTotalBytes hd hcap hsize => ?_, ?_⟩
  · have hs : chunkSize.toNat ≠ 0 := by omega
    set chunks := chunkBundleIter chunkSize.toNat 0 data with hchunks
    have hcount : 0 < chunks.length := by
      rw [hchunks, chunkBundleIter_cons _ hd hs, List.length_cons]
      exact Nat.succ_pos _
    have hlen : 0 < data.length := List.length_pos_iff.2 hd
    have hcreate : BundleAssembler.create data.length chunks.length (digest.lower (digest.hex data))
        maxTotalBytes = .ok ⟨data.length, chunks.length, digest.hex data, [], 0, false, none⟩ := by
      unfold BundleAssembler.create
      rw [if_neg (by omega), if_neg (by omega), if_neg (by omega), digest.lower_hex]
    have hfeed := feedAll_chunkBundleIter
      (a := ⟨data.length, chunks.length, digest.hex data, [], 0, false, none⟩) codec hs data
      rfl hd rfl (zero_add _) (zero_add _)
    refine ⟨chunks, _, _, if_neg (by omega), hcreate, hfeed, ?_⟩
    unfold BundleAssembler.finalise
    simp
  · intro totalBytes numChunks maxTotalBytes sha256Hex calls a b data hcreate hrun hfin
    obtain ⟨hnil, hmax⟩ : Assembled digest.hex totalBytes numChunks (digest.lower sha256Hex) [] a ∧
        totalBytes ≤ maxTotalBytes := assembled_create hcreate
    have hall := hnil.runCalls hrun
    rw [List.nil_append] at hall
    obtain ⟨hdata, hcount, hlen, hsha⟩ := hall.finalise.2 data hfin
    refine ⟨_, rfl, hcount, hall.indices, ?_, hdata, hdata ▸ hlen, fun front hfront => ?_,
      hdata ▸ hsha⟩
    · rw [hall.lasts, ← hcount]
      refine List.map_congr_left fun i _ => ?_
      rw [decide_eq_decide]
      omega
    · obtain ⟨back, hback⟩ := hfront
      have hsum := congrArg List.length (payload_append front back)
      rw [hback, List.length_append] at hsum
      omega

/-- The digest of `a`; other payloads do not matter here. -/
def letterDigest : Digest where
  hex data :=
    if data = [97] then "ca978112ca1bbdcafac231b39a23dc4da786eff8147c4e72b9807785afee48bb" else ""
  lower := String.toLower
  lower_hex data := by
    split <;> decide +kernel

/-- Base64 of `a`; other chunks stand behind a dash. -/
def letterEncode (raw : List UInt8) : List Char :=
  if raw = [97] then "YQ==".toList else '-' :: raw.map fun b => Char.ofNat b.toNat

/-- The other way. -/
def letterDecode (text : List Char) : Option (List UInt8) :=
  match text with
  | '-' :: rest => some (rest.map fun c => UInt8.ofNat c.toNat)
  | text => if text = "YQ==".toList then some [97] else none

theorem letterDecode_letterEncode (raw : List UInt8) : letterDecode (letterEncode raw) = some raw := by
  by_cases h : raw = [97]
  · subst h
    rfl
  · have hbyte : ∀ b : UInt8, UInt8.ofNat (Char.ofNat b.toNat).toNat = b := by
      intro b
      have hlt : b.toNat < 256 := b.toNat_lt
      have hvalid : b.toNat.isValidChar := Or.inl (by omega)
      rw [Char.ofNat, dif_pos hvalid]
      exact UInt8.ofNat_toNat
    rw [letterEncode, if_neg h]
    show some ((raw.map fun b => Char.ofNat b.toNat).map fun c => UInt8.ofNat c.toNat) = some raw
    rw [List.map_map]
    exact congrArg some ((List.map_congr_left fun b _ => hbyte b).trans (List.map_id raw))

/-- The two as a codec. -/
def letterCodec : ChunkCodec (List Char) where
  encode := letterEncode
  decode := letterDecode
  decode_encode := letterDecode_letterEncode

/-- One letter in one chunk. -/
theorem bundle_assembler_letter :
    ∃ chunks a b, chunkBundle [97] 32768 = some chunks ∧
      BundleAssembler.create 1 chunks.length
        (letterDigest.lower (letterDigest.hex [97])) bundleMaxTotalBytes = .ok a ∧
      a.feedAll letterCodec.decode (chunks.map fun c => (c.1, letterCodec.encode c.2.1, c.2.2)) =
        some b ∧ (b.finalise letterDigest.hex).1 = .ok [97] :=
  (bundle_assembler letterDigest letterCodec).1 [97] 32768 bundleMaxTotalBytes (by decide)
    (by decide) (by decide)

end DeviceBuilder
