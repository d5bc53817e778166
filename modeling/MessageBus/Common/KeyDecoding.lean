import MessageBus.Base.Der
import MessageBus.Common.KeyUtils

/-!
# Decoding a private key

The DER encoding of an RSA private key (PKCS#1), and the same wrapped in the encoding of a
private key of any algorithm (PKCS#8). `KeyUtils` finds in both the eight numbers of the key.
-/

namespace MessageBus.Common
open MessageBus.Base

open StreamReader

namespace BinaryReader

private theorem reads_readByte (x : UInt8) : Reads readByte [x] x := fun _ _ => rfl

private theorem reads_readUInt16 (x y : UInt8) :
    Reads readUInt16 [x, y] (x.toUInt16 + 256 * y.toUInt16) :=
  (reads_readByte x).bind (reads_readByte y).then

private theorem reads_readBytes (bytes : List UInt8) (h : bytes.length < 2147483648) :
    Reads (readBytes (.ofNat bytes.length)) bytes bytes := by
  intro before rest
  have hpos : ¬ Int32.ofNat bytes.length < 0 := by
    rw [Int32.lt_iff_toInt_lt, Int32.toInt_ofNat_of_lt h]
    exact Int.not_lt.mpr (Int.natCast_nonneg _)
  rw [readBytes, if_neg hpos, Int32.toNatClampNeg_ofNat_of_lt h, List.take_left, List.drop_left]

end BinaryReader

open BinaryReader

namespace KeyUtils

/-! ### The fields of an INTEGER -/

private theorem toInt32_two (low high : UInt8) :
    toInt32 [low, high, 0, 0] = .ofNat (high.toNat * 256 + low.toNat) := by
  rw [toInt32]
  congr 1
  simp only [List.foldr_cons, List.foldr_nil, UInt8.toNat_zero]
  omega

/-- `GetFieldLength` reads the length octets of a content below 64 kB. -/
theorem reads_getFieldLength {n : Nat} (h : n < 65536) :
    Reads getFieldLength (Der.lengthOctets n) (.ofNat n) := by
  obtain ⟨hn, hoctets⟩ | ⟨-, hn, hoctets⟩ | ⟨-, hoctets⟩ := Der.lengthOctets_cases h
  · rw [hoctets]
    have hbyte : (UInt8.ofNat n).toNat = n :=
      UInt8.toNat_ofNat_of_lt' (hn.trans (by decide))
    have hle : UInt8.ofNat n ≤ 0x80 := by
      rw [UInt8.le_iff_toNat_le, hbyte]
      exact Nat.le_of_lt hn
    unfold getFieldLength
    refine (reads_readByte (.ofNat n)).bind_nil ?_
    rw [if_pos hle, hbyte]
    exact reads_pure _
  · have hvalue : toInt32 [UInt8.ofNat n, 0, 0, 0] = .ofNat n := by
      rw [toInt32_two, UInt8.toNat_ofNat_of_lt' hn]
      simp
    rw [hoctets, ← hvalue]
    exact fun _ _ => rfl
  · have hlow : (UInt8.ofNat (n % 256)).toNat = n % 256 :=
      UInt8.toNat_ofNat_of_lt' (Nat.mod_lt n (by decide))
    have hhigh : (UInt8.ofNat (n / 256)).toNat = n / 256 :=
      UInt8.toNat_ofNat_of_lt' (Nat.div_lt_of_lt_mul h)
    have hvalue : toInt32 [UInt8.ofNat (n % 256), UInt8.ofNat (n / 256), 0, 0] = .ofNat n := by
      rw [toInt32_two, hlow, hhigh, Nat.div_add_mod']
    rw [hoctets, ← hvalue]
    exact fun _ _ => rfl

/-- The zeros are passed over one by one, and so is the byte after them. -/
theorem skipZeros_eq {b : UInt8} (hb : b ≠ 0) (m k : Nat) (before rest : List UInt8) :
    skipZeros (.ofNat (m + k)) before (List.replicate k 0 ++ b :: rest) =
      .ok (.ofNat m, ⟨b :: (List.replicate k 0 ++ before), rest⟩) := by
  induction k generalizing before with
  | zero => exact if_neg hb
  | succ k ih =>
    have hcount : Int32.ofNat (m + (k + 1)) - 1 = .ofNat (m + k) := by
      rw [← Nat.add_assoc, Int32.ofNat_add]
      exact Int32.add_sub_cancel _ 1
    have hzeros : List.replicate k (0 : UInt8) ++ 0 :: before =
        0 :: (List.replicate k 0 ++ before) := by
      rw [List.append_cons, ← List.replicate_succ', List.replicate_succ, List.cons_append]
    rw [List.replicate_succ, List.cons_append, skipZeros, if_pos rfl, hcount, ih, hzeros,
      List.cons_append]

/-- `GetIntegerSize` stops before the first byte that is not zero, and returns how many bytes are
left. -/
theorem getIntegerSize_eq {b : UInt8} (hb : b ≠ 0) {m k : Nat} (h : m + k < 65536)
    (before rest : List UInt8) :
    getIntegerSize ⟨before,
      0x02 :: (Der.lengthOctets (m + k) ++ (List.replicate k 0 ++ b :: rest))⟩ =
      .ok (.ofNat m, ⟨List.replicate k 0 ++ ((Der.lengthOctets (m + k)).reverse ++ 0x02 :: before),
        b :: rest⟩) := by
  have hlength := reads_getFieldLength h (0x02 :: before) (List.replicate k 0 ++ b :: rest)
  have hzeros := skipZeros_eq hb m k ((Der.lengthOctets (m + k)).reverse ++ 0x02 :: before) rest
  change (getFieldLength ⟨0x02 :: before, _⟩ >>= fun x =>
    skipZeros x.1 x.2.before x.2.remaining >>= fun y =>
      seekBack y.2 >>= fun z => Except.ok (y.1, z.2)) = _
  rw [hlength]
  change (skipZeros _ _ _ >>= fun y => seekBack y.2 >>= fun z => Except.ok (y.1, z.2)) = _
  rw [hzeros]
  rfl

/-- An INTEGER of a positive number is read as its bytes. -/
theorem reads_readComponent {n : Nat} (hpos : 0 < n)
    (h : (Der.integerContent n).length < 65536) :
    Reads readComponent (Der.integer n) (Der.bigEndian n) := by
  obtain ⟨b, bytes, hb, hn, hcontent⟩ := Der.integerContent_eq hpos
  obtain ⟨k, hk⟩ : ∃ k, Der.integerContent n = List.replicate k 0 ++ Der.bigEndian n := by
    obtain hcontent | hcontent := hcontent
    · exact ⟨0, by rw [hcontent, hn]; rfl⟩
    · exact ⟨1, by rw [hcontent, hn]; rfl⟩
  have hlength : (Der.integerContent n).length = (Der.bigEndian n).length + k := by
    rw [hk, List.length_append, List.length_replicate, Nat.add_comm]
  rw [hlength] at h
  intro before rest
  have hsize := getIntegerSize_eq hb h before (bytes ++ rest)
  have hbytes := reads_readBytes (Der.bigEndian n) (by omega)
    (List.replicate k 0 ++ ((Der.lengthOctets ((Der.bigEndian n).length + k)).reverse ++
      0x02 :: before)) rest
  have hinput : Der.integer n ++ rest = 0x02 ::
      (Der.lengthOctets ((Der.bigEndian n).length + k) ++
        (List.replicate k 0 ++ b :: (bytes ++ rest))) := by
    rw [Der.integer, Der.tlv, hlength, hk, hn]
    simp only [List.cons_append, List.append_assoc]
  have houtput : (Der.integer n).reverse ++ before = (Der.bigEndian n).reverse ++
      (List.replicate k 0 ++ ((Der.lengthOctets ((Der.bigEndian n).length + k)).reverse ++
        0x02 :: before)) := by
    rw [Der.integer, Der.tlv, hlength, hk]
    simp only [List.reverse_cons, List.reverse_append, List.reverse_replicate, List.append_assoc,
      List.singleton_append]
  rw [hinput, houtput]
  change (getIntegerSize ⟨before, _⟩ >>= fun x => readBytes x.1 x.2) = _
  rw [hsize]
  rw [hn] at hbytes ⊢
  exact hbytes

/-! ### The private key -/

private theorem reads_skipSequenceHeader {n : Nat} (hl : 128 ≤ n) (hu : n < 65536) :
    Reads skipSequenceHeader (0x30 :: Der.lengthOctets n) true := by
  obtain ⟨hn, -⟩ | ⟨-, -, hoctets⟩ | ⟨-, hoctets⟩ := Der.lengthOctets_cases hu
  · exact absurd hn (Nat.not_lt.mpr hl)
  · rw [hoctets]
    exact fun _ _ => rfl
  · rw [hoctets]
    exact fun _ _ => rfl

end KeyUtils

/-- The numbers of an RSA private key. -/
structure RsaKey where
  modulus : Nat
  exponent : Nat
  d : Nat
  p : Nat
  q : Nat
  dp : Nat
  dq : Nat
  inverseQ : Nat

namespace RsaKey

variable {k : RsaKey}

/-- The numbers in the order of the encoding. -/
def numbers (k : RsaKey) : List Nat :=
  [k.modulus, k.exponent, k.d, k.p, k.q, k.dp, k.dq, k.inverseQ]

/-- Version 0 and the numbers. -/
def pkcs1Content (k : RsaKey) : List UInt8 :=
  Der.integer 0 ++ (k.numbers.map Der.integer).flatten

/-- The key as `RSAPrivateKey`. -/
def pkcs1 (k : RsaKey) : List UInt8 := Der.sequence k.pkcs1Content

/-- The algorithm 1.2.840.113549.1.1.1, RSA encryption, without parameters. -/
def algorithm : List UInt8 :=
  Der.sequence (Der.tlv 0x06 [0x2A, 0x86, 0x48, 0x86, 0xF7, 0x0D, 0x01, 0x01, 0x01] ++
    Der.tlv 0x05 [])

/-- Version 0, the algorithm and the key. -/
def pkcs8Content (k : RsaKey) : List UInt8 :=
  Der.integer 0 ++ (algorithm ++ Der.octetString k.pkcs1)

/-- The key as `PrivateKeyInfo`. -/
def pkcs8 (k : RsaKey) : List UInt8 := Der.sequence k.pkcs8Content

/-- The numbers as big-endian bytes. -/
def parameters (k : RsaKey) : RSAParameters where
  modulus := Der.bigEndian k.modulus
  exponent := Der.bigEndian k.exponent
  d := Der.bigEndian k.d
  p := Der.bigEndian k.p
  q := Der.bigEndian k.q
  dp := Der.bigEndian k.dp
  dq := Der.bigEndian k.dq
  inverseQ := Der.bigEndian k.inverseQ

end RsaKey

namespace KeyUtils

variable {k : RsaKey}

/-- Each INTEGER of a content below 64 kB is read as its bytes. -/
theorem reads_component (hk : ∀ n ∈ k.numbers, 0 < n) (h : k.pkcs1Content.length < 65536)
    {n : Nat} (hn : n ∈ k.numbers) : Reads readComponent (Der.integer n) (Der.bigEndian n) := by
  apply reads_readComponent (hk n hn)
  calc (Der.integerContent n).length
      ≤ (Der.integer n).length := Nat.le_of_lt (Der.length_lt_tlv _ _)
    _ ≤ (k.numbers.map Der.integer).flatten.length :=
        (List.sublist_flatten_of_mem (List.mem_map_of_mem hn)).length_le
    _ ≤ k.pkcs1Content.length := by rw [RsaKey.pkcs1Content, List.length_append]; omega
    _ < 65536 := h

private theorem reads_readComponents (hk : ∀ n ∈ k.numbers, 0 < n)
    (h : k.pkcs1Content.length < 65536) :
    Reads readComponents (k.numbers.map Der.integer).flatten k.parameters := by
  have hread (n) (hn : n ∈ k.numbers) := reads_component hk h hn
  simp only [RsaKey.numbers, List.forall_mem_cons] at hread
  obtain ⟨hmodulus, hexponent, hd, hp, hq, hdp, hdq, hinverseQ, -⟩ := hread
  have hbytes : (k.numbers.map Der.integer).flatten = Der.integer k.modulus ++
      (Der.integer k.exponent ++ (Der.integer k.d ++ (Der.integer k.p ++ (Der.integer k.q ++
        (Der.integer k.dp ++ (Der.integer k.dq ++ Der.integer k.inverseQ)))))) := by
    simp [RsaKey.numbers]
  rw [hbytes]
  exact hmodulus.bind <| hexponent.bind <| hd.bind <| hp.bind <| hq.bind <| hdp.bind <|
    hdq.bind hinverseQ.then

private theorem reads_readRSAPrivateKey (hk : ∀ n ∈ k.numbers, 0 < n)
    (hl : 128 ≤ k.pkcs1Content.length) (hu : k.pkcs1Content.length < 65536) :
    Reads readRSAPrivateKey k.pkcs1 k.parameters := by
  have hbytes : k.pkcs1 = (0x30 :: Der.lengthOctets k.pkcs1Content.length) ++
      ([0x02, 0x01] ++ ([0x00] ++ (k.numbers.map Der.integer).flatten)) := rfl
  rw [hbytes]
  refine (reads_skipSequenceHeader hl hu).bind ?_
  refine (reads_readUInt16 0x02 0x01).bind ?_
  exact (reads_readByte 0x00).bind (reads_readComponents hk hu)

/-- `DecodeRSAPrivateKey` finds the numbers of a key. -/
theorem decodeRSAPrivateKey_pkcs1 (hk : ∀ n ∈ k.numbers, 0 < n)
    (hl : 128 ≤ k.pkcs1Content.length) (hu : k.pkcs1Content.length < 65536) :
    decodeRSAPrivateKey k.pkcs1 = .ok k.parameters :=
  (reads_readRSAPrivateKey hk hl hu).toEnd.run'_eq

/-- The bytes that give the length of an OCTET STRING are passed over, however many. -/
theorem reads_skipOctetLength {n : Nat} (h : n < 65536) :
    Reads skipOctetLength (Der.lengthOctets n) () := by
  obtain ⟨hn, hoctets⟩ | ⟨-, -, hoctets⟩ | ⟨-, hoctets⟩ := Der.lengthOctets_cases h
  · have hne {m : UInt8} (hm : 128 ≤ m.toNat) : UInt8.ofNat n ≠ m := by
      rintro rfl
      rw [UInt8.toNat_ofNat_of_lt' (hn.trans (by decide))] at hm
      omega
    rw [hoctets]
    unfold skipOctetLength
    refine (reads_readByte (.ofNat n)).bind_nil ?_
    rw [if_neg (hne (by decide)), if_neg (hne (by decide))]
    exact reads_pure ()
  · rw [hoctets]
    exact fun _ _ => rfl
  · rw [hoctets]
    exact fun _ _ => rfl

private theorem oidRSAEncryption_eq : RsaKey.algorithm = oidRSAEncryption := by decide

/-- What is left in the stream is decoded. -/
theorem readsToEnd_decode {bytes : List UInt8} {params : RSAParameters}
    (h : bytes.length < 2147483648) (hdecode : decodeRSAPrivateKey bytes = .ok params) :
    ReadsToEnd (do
      let rsaPrivKey ← readBytes (← available)
      StateT.lift (decodeRSAPrivateKey rsaPrivKey)) bytes params := by
  intro before
  have hread := reads_readBytes bytes h before []
  rw [List.append_nil] at hread
  change Prod.fst <$> (readBytes (.ofNat bytes.length) ⟨before, bytes⟩ >>= fun x =>
    decodeRSAPrivateKey x.1 >>= fun a => Except.ok (a, x.2)) = _
  rw [hread]
  change Prod.fst <$> (decodeRSAPrivateKey bytes >>= fun a => Except.ok (a, _)) = _
  rw [hdecode]
  rfl

/-- The bytes before the key are passed over, and the rest is the key. -/
theorem decodePrivateKey_pkcs8 (hk : ∀ n ∈ k.numbers, 0 < n)
    (hl : 128 ≤ k.pkcs1Content.length) (hu : k.pkcs8Content.length < 65536) :
    decodePrivateKey k.pkcs8 = .ok k.parameters := by
  have hpkcs1 : k.pkcs1Content.length < k.pkcs1.length := Der.length_lt_tlv _ _
  have hoctets : k.pkcs1.length < (Der.octetString k.pkcs1).length := Der.length_lt_tlv _ _
  have hcontent : (Der.octetString k.pkcs1).length ≤ k.pkcs8Content.length := by
    simp only [RsaKey.pkcs8Content, List.length_append]
    omega
  have hbytes : k.pkcs8Content = [0x02] ++ ([0x01, 0x00] ++ (oidRSAEncryption ++ ([0x04] ++
      (Der.lengthOctets k.pkcs1.length ++ k.pkcs1)))) := by
    have hversion : Der.integer 0 = [0x02, 0x01, 0x00] := by decide
    rw [RsaKey.pkcs8Content, oidRSAEncryption_eq, hversion, Der.octetString, Der.tlv]
    simp only [List.cons_append, List.nil_append]
  have hdecode := decodeRSAPrivateKey_pkcs1 hk hl (by omega)
  have hrest := readsToEnd_decode (by omega) hdecode
  have hseq := reads_readBytes oidRSAEncryption (by decide)
  have hheader := reads_skipSequenceHeader (n := k.pkcs8Content.length) (by omega) hu
  apply ReadsToEnd.run'_eq
  change ReadsToEnd _ ((0x30 :: Der.lengthOctets k.pkcs8Content.length) ++ k.pkcs8Content) _
  refine hheader.bind_toEnd ?_
  rw [hbytes]
  refine (reads_readByte 0x02).bind_toEnd ?_
  refine (reads_readUInt16 0x01 0x00).bind_toEnd ?_
  refine hseq.bind_toEnd ?_
  rw [if_neg (not_not.mpr rfl)]
  refine (reads_readByte 0x04).bind_toEnd ?_
  exact (reads_skipOctetLength (by omega)).bind_toEnd hrest

end KeyUtils

end MessageBus.Common
