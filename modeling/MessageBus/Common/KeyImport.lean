import MessageBus.Common.KeyFiles

/-!
# What import asks of a decoded key

`Decode` hands the parameters to `RSACryptoServiceProvider.ImportParameters`, which asks of `D`
the length of the modulus, and of the five arrays after it half that length, rounded up. The
decoder strips all zeros in front of a number, so an array is short exactly if the top byte
that import asks for is zero.
-/

namespace MessageBus.Common
open MessageBus.Base StreamReader BinaryReader

/-! ### No array begins with a zero -/

namespace KeyUtils

variable {text : String} {params : RSAParameters}

private theorem skipZeros_before {count count' : Int32} {before rest : List UInt8}
    {s : MemoryStream} (h : skipZeros count before rest = .ok (count', s)) :
    ∃ b t, b ≠ 0 ∧ s.before = b :: t := by
  induction rest generalizing count before with
  | nil => cases h
  | cons b rest ih =>
    rw [skipZeros] at h
    split at h
    · exact ih h
    · next hb =>
      cases h
      exact ⟨b, before, hb, rfl⟩

/-- `GetIntegerSize` returns zero, or leaves the stream at a byte that is not zero. -/
theorem getIntegerSize_remaining {s s' : MemoryStream} {count : Int32}
    (h : getIntegerSize s = .ok (count, s')) : count = 0 ∨ s'.remaining.head? ≠ some 0 := by
  obtain ⟨b, t, -, h⟩ := apply_bind_eq_ok_iff.mp h
  split at h
  · cases h
    exact .inl rfl
  · obtain ⟨length, t, -, h⟩ := apply_bind_eq_ok_iff.mp h
    obtain ⟨count, t, hzeros, h⟩ := apply_bind_eq_ok_iff.mp h
    obtain ⟨_, t, hseek, h⟩ := apply_bind_eq_ok_iff.mp h
    cases h
    obtain ⟨b, before, hb, hbefore⟩ := skipZeros_before hzeros
    rw [seekBack, hbefore] at hseek
    cases hseek
    rw [List.head?_cons, ne_eq, Option.some_inj]
    exact .inr hb

private theorem ensures_readComponent :
    Ensures readComponent fun bytes => bytes.head? ≠ some 0 := by
  intro s bytes s' h
  obtain ⟨count, t, hsize, hread⟩ := apply_bind_eq_ok_iff.mp h
  rw [readBytes] at hread
  split at hread
  · cases hread
  cases hread
  obtain rfl | hhead := getIntegerSize_remaining hsize
  · simp
  · rw [List.head?_take]
    split
    · simp
    · exact hhead

/-- Nothing is read where the bytes are no key. -/
theorem ensures_default : Ensures (return {} : BinaryReader RSAParameters)
    RSAParameters.Stripped := by
  apply ensures_pure
  intro bytes h
  simp [RSAParameters.components] at h

private theorem ensures_readComponents : Ensures readComponents RSAParameters.Stripped := by
  refine ensures_readComponent.bind fun modulus hmodulus => ?_
  refine ensures_readComponent.bind fun exponent hexponent => ?_
  refine ensures_readComponent.bind fun d hd => ?_
  refine ensures_readComponent.bind fun p hp => ?_
  refine ensures_readComponent.bind fun q hq => ?_
  refine ensures_readComponent.bind fun dp hdp => ?_
  refine ensures_readComponent.bind fun dq hdq => ?_
  refine ensures_readComponent.bind fun inverseQ hinverseQ => ensures_pure ?_
  intro bytes h
  simp only [RSAParameters.components, List.mem_cons, Option.some_inj, List.not_mem_nil,
    or_false] at h
  obtain rfl | rfl | rfl | rfl | rfl | rfl | rfl | rfl := h <;> assumption

/-- Where a test rejects the bytes nothing is read, else the next read decides. -/
theorem ensures_test {α : Type} {c : Prop} [Decidable c] {r : BinaryReader α}
    {f : α → BinaryReader RSAParameters} (hf : ∀ a, Ensures (f a) RSAParameters.Stripped) :
    Ensures (if c then return {} else r >>= f) RSAParameters.Stripped :=
  ensures_ite ensures_default ((ensures_true r).bind fun a _ => hf a)

private theorem ensures_readRSAPrivateKey : Ensures readRSAPrivateKey RSAParameters.Stripped := by
  refine (ensures_true skipSequenceHeader).bind fun _ _ => ?_
  refine ensures_test fun twobytes => ensures_test fun bt => ?_
  exact ensures_ite ensures_default ensures_readComponents

private theorem ensures_readPrivateKey : Ensures readPrivateKey RSAParameters.Stripped := by
  refine (ensures_true skipSequenceHeader).bind fun _ _ => ?_
  refine ensures_test fun tag => ensures_test fun version => ensures_test fun seq => ?_
  refine ensures_test fun tag => ensures_test fun _ => ?_
  refine (ensures_true _).bind fun _ _ => (ensures_true _).bind fun rsaPrivKey _ => ?_
  exact ensures_lift fun params h => ensures_readRSAPrivateKey.of_run' h

/-- What any text decodes to. -/
theorem stripped_of_decodeText (h : decodeText text = .ok params) : params.Stripped := by
  obtain ⟨x, -, hdecode⟩ := bind_eq_ok_iff.mp h
  change decodeParameters x.1 x.2 = _ at hdecode
  rw [decodeParameters] at hdecode
  split at hdecode
  · exact ensures_readRSAPrivateKey.of_run' hdecode
  split at hdecode
  · exact ensures_readPrivateKey.of_run' hdecode
  split at hdecode <;> cases hdecode

/-- A text that decodes to numbers decodes to their bytes without leading zeros. -/
theorem eq_parameters_of_denotes {k : RsaKey} (h : decodeText text = .ok params)
    (hk : params.Denotes k) : params = k.parameters := by
  have hcomponents : params.components = k.parameters.components := by
    rw [components_parameters, ← List.forall₂_eq_eq_eq, List.forall₂_map_right_iff]
    have hstripped : ∀ component ∈ params.components, ∀ bytes, component = some bytes →
        bytes.head? ≠ some 0 := by
      rintro _ hcomponent bytes rfl
      exact stripped_of_decodeText h bytes hcomponent
    have hboth := (List.forall₂_and_left _ _).mpr ⟨hstripped, hk⟩
    refine hboth.imp ?_
    rintro _ n ⟨hstripped, bytes, rfl, rfl⟩
    rw [Der.bigEndian_value (hstripped bytes rfl)]
  cases params
  simpa [RSAParameters.components, RsaKey.parameters] using hcomponents

end KeyUtils

/-! ### The lengths -/

/-- The number of bytes of a number. -/
def byteLength (n : Nat) : Nat := (Der.bigEndian n).length

/-- Half a number of bytes, rounded up. -/
def halfLength (length : Nat) : Nat := (length + 1) / 2

/-- The lengths that `ImportParameters` asks for. -/
def RSAParameters.Importable (params : RSAParameters) : Prop :=
  ∃ modulus, params.modulus = some modulus ∧
    params.d.map List.length = some modulus.length ∧
    ∀ component ∈ [params.p, params.q, params.dp, params.dq, params.inverseQ],
      component.map List.length = some (halfLength modulus.length)

/-- The key is one for which import is meant: the primes have half the bytes of the modulus,
and the other numbers lie below what they are taken modulo. -/
structure RsaKey.Valid (k : RsaKey) : Prop where
  positive : ∀ n ∈ k.numbers, 0 < n
  d_lt : k.d < k.modulus
  length_p : byteLength k.p = halfLength (byteLength k.modulus)
  length_q : byteLength k.q = halfLength (byteLength k.modulus)
  dp_lt : k.dp < k.p
  dq_lt : k.dq < k.q
  inverseQ_lt : k.inverseQ < k.p

/-- The top byte that import asks of a number is not zero. -/
def RsaKey.FullLength (k : RsaKey) : Prop :=
  256 ^ (byteLength k.modulus - 1) ≤ k.d ∧
    ∀ n ∈ [k.dp, k.dq, k.inverseQ], 256 ^ (halfLength (byteLength k.modulus) - 1) ≤ n

section Lengths

variable {k : RsaKey} {text : String} {params : RSAParameters}

/-- A number below one of the length has the length exactly if its top byte is not zero. -/
theorem byteLength_eq_iff {m n length : Nat} (hn : byteLength n = length) (hpos : 0 < length)
    (h : m < n) : byteLength m = length ↔ 256 ^ (length - 1) ≤ m := by
  have hle : byteLength m ≤ byteLength n := Der.length_bigEndian_mono (Nat.le_of_lt h)
  rw [← Der.lt_length_bigEndian_iff]
  change _ ↔ length - 1 < byteLength m
  omega

private theorem importable_parameters_iff (k : RsaKey) : k.parameters.Importable ↔
    byteLength k.d = byteLength k.modulus ∧ ∀ n ∈ [k.p, k.q, k.dp, k.dq, k.inverseQ],
      byteLength n = halfLength (byteLength k.modulus) := by
  simp [RSAParameters.Importable, RsaKey.parameters, byteLength]

/-- The key that a text decodes to can be imported exactly if no number is short. -/
theorem importable_iff (hk : k.Valid) (h : KeyUtils.decodeText text = .ok params)
    (hparams : params.Denotes k) : params.Importable ↔ k.FullLength := by
  obtain rfl := KeyUtils.eq_parameters_of_denotes h hparams
  obtain ⟨hpositive, hd, hp, hq, hdp, hdq, hinverseQ⟩ := hk
  have hmodulus : 0 < byteLength k.modulus :=
    List.length_pos_iff.mpr (Der.bigEndian_ne_nil (hpositive _ List.mem_cons_self))
  have hhalf : 0 < halfLength (byteLength k.modulus) := by
    rw [halfLength]
    omega
  rw [importable_parameters_iff, RsaKey.FullLength, byteLength_eq_iff rfl hmodulus hd]
  simp only [List.forall_mem_cons, List.not_mem_nil, false_implies, implies_true, and_true, hp, hq,
    true_and, byteLength_eq_iff hp hhalf hdp, byteLength_eq_iff hq hhalf hdq,
    byteLength_eq_iff hp hhalf hinverseQ]

end Lengths

private theorem fullKey_valid : fullKey.Valid :=
  ⟨by decide, by decide, by decide +kernel, by decide +kernel, by decide, by decide, by decide⟩

/-- The key of 512 bits, whose numbers have their full length, can be imported. -/
theorem fullKey_importable : fullKey.parameters.Importable := by
  have hdecode := KeyUtils.decodeText_parameters (by decide) (by decide +kernel)
    (by decide +kernel) (keyFile_text fullKey .rsaPrivateKey)
  refine (importable_iff fullKey_valid hdecode (KeyUtils.parameters_denote fullKey)).mpr ?_
  unfold RsaKey.FullLength
  decide +kernel

/-- The numbers are those of one pair of primes. -/
def RsaKey.Consistent (k : RsaKey) : Prop :=
  k.modulus = k.p * k.q ∧ k.exponent * k.d % ((k.p - 1) * (k.q - 1)) = 1 ∧
    k.dp = k.d % (k.p - 1) ∧ k.dq = k.d % (k.q - 1) ∧ k.inverseQ * k.q % k.p = 1

/-- A key of 512 bits whose number modulo `p - 1` has 31 bytes. -/
def shortKey : RsaKey where
  modulus := 0xc40b7bc00f0eb468003f03aafc3b06c191a2e552fadb1e6fbf850b17a99204c0 * 2 ^ 256 +
    0x3b4e28ac3796049e27f99754061c7e342b484e0b80b7337bd78f65403bc7c881
  exponent := 65537
  d := 0x65e1fde71b2c2e2f9a692533d82fa8dc321eb10545df585b04f254887094b528 * 2 ^ 256 +
    0x74aae74122be0a6dbd7c7612870db6682da8782ab2ecf5c2869cb1a3981d5091
  p := 0xd36017245abcc001518a4694ac28de6e5b501ef17e73c33c67b8e4230f4341b5
  q := 0xed6ed8d59e9ab53f40811a3b385de12a7a86aa642dff08cbdeb1f7242e565b1d
  dp := 0x008ab68479571286ee569467bd293da8bac331d11ca9df4e4055d0ffe6021e21
  dq := 0x256ca56cf674f840a210376c423439fb92188bdf0289027feff8293660bf67d9
  inverseQ := 0x2b10e1520e3cd0c3ad7d4014be0389b264ede90b2f10c0119f85f105d795536b

/-- The file of the key is read, and the parameters are rejected. -/
theorem shortKey_not_importable : shortKey.Valid ∧ shortKey.Consistent ∧
    KeyFile .rsaPrivateKey shortKey (KeyFormat.rsaPrivateKey.text shortKey) ∧
    ∃ params, KeyUtils.decodeText (KeyFormat.rsaPrivateKey.text shortKey) = .ok params ∧
      params.Denotes shortKey ∧ ¬ params.Importable := by
  have hvalid : shortKey.Valid :=
    ⟨by decide, by decide, by decide +kernel, by decide +kernel, by decide, by decide, by decide⟩
  have hfile := keyFile_text shortKey .rsaPrivateKey
  have hdecode := KeyUtils.decodeText_parameters (by decide) (by decide +kernel)
    (by decide +kernel) hfile
  refine ⟨hvalid, ?_, hfile, _, hdecode, KeyUtils.parameters_denote shortKey, ?_⟩
  · unfold RsaKey.Consistent
    decide +kernel
  · rw [importable_parameters_iff]
    decide +kernel

end MessageBus.Common
