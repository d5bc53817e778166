import MessageBus.Base.Glob
import MessageBus.Common.Values

/-!
# The globber

`core/src/JetBlack.MessageBus.Common/Globber.cs`. A .NET string is a sequence of UTF-16
code units, and the matcher walks a value and a pattern with one index for both. What
`char.ToUpper` does depends on the culture of the process, so it is an argument.
-/

namespace MessageBus.Common

namespace Globber
open MessageBus.Base MessageBus.Base.Glob

/-- The indexer of `string`. -/
def charAt (s : List UInt16) (index : Nat) : Except Exception UInt16 :=
  match s[index]? with
  | none => .error .indexOutOfRange
  | some c => .ok c

/-- `string.Substring`. -/
def substring (s : List UInt16) (startIndex : Nat) : Except Exception (List UInt16) :=
  if startIndex ≤ s.length then .ok (s.drop startIndex) else .error .argument

private theorem lt_length_of_charAt {s : List UInt16} {index : Nat} {c : UInt16}
    (h : charAt s index = .ok c) : index < s.length := by
  unfold charAt at h
  split at h
  · cases h
  · next hc => exact (List.getElem?_eq_some_iff.mp hc).1

private theorem length_of_substring {s rest : List UInt16} {startIndex : Nat}
    (h : substring s startIndex = .ok rest) : rest.length = s.length - startIndex := by
  unfold substring at h
  split at h
  · cases h
    exact List.length_drop
  · cases h

/-- The loop of `Glob` from `pos` on, `Globber.cs:9–37`. The `for` loop tries the suffixes
of the value from the shortest on. -/
def globFrom (toUpper : UInt16 → UInt16) (value pattern : List UInt16) (pos : Nat) :
    Except Exception Bool :=
  if pattern.length = pos then .ok (value.length == pos)
  else
    match _hc : charAt pattern pos with
    | .error e => .error e
    | .ok c =>
      if c = 0x3F then globFrom toUpper value pattern (pos + 1)
      else if c = 0x2A then
        (List.range' pos (value.length + 1 - pos)).reverse.anyM fun i =>
          match substring value i, _hp : substring pattern (pos + 1) with
          | .ok value, .ok pattern => globFrom toUpper value pattern 0
          | .error e, _ => .error e
          | _, .error e => .error e
      else if value.length = pos then .ok false
      else
        match charAt value pos with
        | .error e => .error e
        | .ok v =>
          if toUpper c ≠ toUpper v then .ok false
          else globFrom toUpper value pattern (pos + 1)
  termination_by pattern.length - pos
  decreasing_by
  · have := lt_length_of_charAt _hc
    omega
  · have := lt_length_of_charAt _hc
    have := length_of_substring _hp
    omega
  · have := lt_length_of_charAt _hc
    omega

/-- `Glob`, `Globber.cs:5–38`. -/
def glob (toUpper : UInt16 → UInt16) (value pattern : List UInt16) : Except Exception Bool :=
  globFrom toUpper value pattern 0

/-! ### The pattern language -/

/-- What a character of a pattern stands for. -/
def token (c : UInt16) : Token UInt16 :=
  if c = 0x3F then .one else if c = 0x2A then .many else .literal c

/-- Two characters are equal after `char.ToUpper`. -/
def SameUpper (toUpper : UInt16 → UInt16) (a b : UInt16) : Prop := toUpper a = toUpper b

/-- The value matches the pattern: `?` stands for one character, `*` for any sequence, and
any other character for one that is equal to it after `char.ToUpper`. -/
def GlobMatches (toUpper : UInt16 → UInt16) (value pattern : List UInt16) : Prop :=
  Matches (SameUpper toUpper) (pattern.map token) value

variable {toUpper : UInt16 → UInt16}

/-! ### One step of the matcher -/

private theorem drop_succ {s rest : List UInt16} {index : Nat} {c : UInt16}
    (h : s.drop index = c :: rest) : s.drop (index + 1) = rest := by
  rw [← List.drop_drop, h, List.drop_succ_cons, List.drop_zero]

private theorem lt_length_of_drop {s rest : List UInt16} {index : Nat} {c : UInt16}
    (h : s.drop index = c :: rest) : index < s.length := by
  have hl := congrArg List.length h
  rw [List.length_drop, List.length_cons] at hl
  omega

private theorem charAt_of_drop {s rest : List UInt16} {index : Nat} {c : UInt16}
    (h : s.drop index = c :: rest) : charAt s index = .ok c := by
  have hget : s[index]? = some c := by
    rw [← List.head?_drop, h, List.head?_cons]
  rw [charAt, hget]

private theorem charAt_of_le {s : List UInt16} {index : Nat} (h : s.length ≤ index) :
    charAt s index = .error .indexOutOfRange := by
  rw [charAt, List.getElem?_eq_none h]

private theorem substring_of_le {s : List UInt16} {startIndex : Nat} (h : startIndex ≤ s.length) :
    substring s startIndex = .ok (s.drop startIndex) := if_pos h

section
variable {value pattern rest : List UInt16} {pos : Nat} {c : UInt16}

private theorem globFrom_end :
    globFrom toUpper value pattern pattern.length = .ok (value.length == pattern.length) := by
  rw [globFrom, if_pos rfl]

private theorem globFrom_one (h : pattern.drop pos = 0x3F :: rest) :
    globFrom toUpper value pattern pos = globFrom toUpper value pattern (pos + 1) := by
  have hne : pattern.length ≠ pos := (lt_length_of_drop h).ne'
  conv_lhs => rw [globFrom, if_neg hne]
  split
  · next e he =>
    rw [charAt_of_drop h] at he
    cases he
  · next c hc =>
    rw [charAt_of_drop h] at hc
    cases hc
    rw [if_pos rfl]

private theorem globFrom_many (toUpper : UInt16 → UInt16) (value : List UInt16)
    (h : pattern.drop pos = 0x2A :: rest) :
    ∃ tryFrom : Nat → Except Exception Bool, globFrom toUpper value pattern pos =
        (List.range' pos (value.length + 1 - pos)).reverse.anyM tryFrom ∧
      ∀ i ≤ value.length, tryFrom i = glob toUpper (value.drop i) rest := by
  have hlt := lt_length_of_drop h
  rw [globFrom, if_neg hlt.ne']
  split
  · next e he =>
    rw [charAt_of_drop h] at he
    cases he
  · next c hc =>
    rw [charAt_of_drop h] at hc
    cases hc
    rw [if_neg (by decide), if_pos rfl]
    refine ⟨_, rfl, ?_⟩
    intro i hi
    rw [substring_of_le hi]
    have hrest : substring pattern (pos + 1) = .ok rest := by
      rw [substring_of_le hlt, drop_succ h]
    split
    · next hv hp =>
      rw [hrest] at hp
      cases hv
      cases hp
      rfl
    · next he => cases he
    · next he _ =>
      rw [hrest] at he
      cases he

private theorem globFrom_literal (h : pattern.drop pos = c :: rest) (hone : c ≠ 0x3F)
    (hmany : c ≠ 0x2A) : globFrom toUpper value pattern pos =
      if value.length = pos then .ok false
      else match charAt value pos with
        | .error e => .error e
        | .ok v =>
          if toUpper c ≠ toUpper v then .ok false
          else globFrom toUpper value pattern (pos + 1) := by
  have hne : pattern.length ≠ pos := (lt_length_of_drop h).ne'
  conv_lhs => rw [globFrom, if_neg hne]
  split
  · next e he =>
    rw [charAt_of_drop h] at he
    cases he
  · next c' hc =>
    rw [charAt_of_drop h] at hc
    cases hc
    rw [if_neg hone, if_neg hmany]

end

/-! ### Running past the end of the value -/

/-- After any number of `?` comes a character that is not a wildcard. -/
def NeedsLiteral (p : List (Token UInt16)) : Prop :=
  ∃ count c rest, p = List.replicate count .one ++ .literal c :: rest

/-- The whole value matches a part of the pattern that is followed by a `?`, and by a
character that is not a wildcard after any number of further `?`. -/
def Overruns (R : UInt16 → UInt16 → Prop) (p : List (Token UInt16)) (value : List UInt16) :
    Prop :=
  ∃ matched rest, p = matched ++ .one :: rest ∧ Matches R matched value ∧ NeedsLiteral rest

section
variable {R : UInt16 → UInt16 → Prop} {p : List (Token UInt16)} {value : List UInt16}
  {c v : UInt16}

private theorem needsLiteral_one_iff : NeedsLiteral (.one :: p) ↔ NeedsLiteral p := by
  constructor
  · rintro ⟨count, c, rest, h⟩
    cases count with
    | zero => cases h
    | succ count =>
      rw [List.replicate_succ, List.cons_append] at h
      exact ⟨count, c, rest, (List.cons.inj h).2⟩
  · rintro ⟨count, c, rest, rfl⟩
    exact ⟨count + 1, c, rest, rfl⟩

private theorem needsLiteral_literal : NeedsLiteral (.literal c :: p) := ⟨0, c, p, rfl⟩

private theorem not_needsLiteral_nil : ¬ NeedsLiteral [] := by
  rintro ⟨count, c, rest, h⟩
  simp at h

private theorem not_needsLiteral_many : ¬ NeedsLiteral (.many :: p) := by
  rintro ⟨count, c, rest, h⟩
  cases count with
  | zero => cases h
  | succ count => cases h

private theorem not_overruns_nil : ¬ Overruns R [] value := by
  rintro ⟨matched, rest, h, -⟩
  simp at h

/-- At the end of the value the first `?` goes past it. -/
theorem overruns_one_nil_iff : Overruns R (.one :: p) [] ↔ NeedsLiteral p := by
  constructor
  · rintro ⟨matched, rest, h, hm, hn⟩
    cases matched with
    | nil =>
      obtain rfl := (List.cons.inj h).2
      exact hn
    | cons t matched =>
      obtain ⟨rfl, -⟩ := List.cons.inj h
      exact absurd hm not_matches_one_nil
  · exact fun h => ⟨[], p, rfl, .nil, h⟩

private theorem overruns_one_cons_iff :
    Overruns R (.one :: p) (v :: value) ↔ Overruns R p value := by
  constructor
  · rintro ⟨matched, rest, h, hm, hn⟩
    cases matched with
    | nil => cases matches_nil_iff.mp hm
    | cons t matched =>
      obtain ⟨rfl, rfl⟩ := List.cons.inj h
      exact ⟨matched, rest, rfl, matches_one_cons_iff.mp hm, hn⟩
  · rintro ⟨matched, rest, rfl, hm, hn⟩
    exact ⟨.one :: matched, rest, rfl, .one v hm, hn⟩

private theorem not_overruns_literal_nil : ¬ Overruns R (.literal c :: p) [] := by
  rintro ⟨matched, rest, h, hm, -⟩
  cases matched with
  | nil => cases h
  | cons t matched =>
    obtain ⟨rfl, -⟩ := List.cons.inj h
    exact not_matches_literal_nil hm

private theorem overruns_literal_cons_iff :
    Overruns R (.literal c :: p) (v :: value) ↔ R c v ∧ Overruns R p value := by
  constructor
  · rintro ⟨matched, rest, h, hm, hn⟩
    cases matched with
    | nil => cases h
    | cons t matched =>
      obtain ⟨rfl, rfl⟩ := List.cons.inj h
      obtain ⟨hcv, hm⟩ := matches_literal_cons_iff.mp hm
      exact ⟨hcv, matched, rest, rfl, hm, hn⟩
  · rintro ⟨hcv, matched, rest, rfl, hm, hn⟩
    exact ⟨.literal c :: matched, rest, rfl, .literal hcv hm, hn⟩

private theorem overruns_many_iff :
    Overruns R (.many :: p) value ↔ ∃ suffix, suffix <:+ value ∧ Overruns R p suffix := by
  constructor
  · rintro ⟨matched, rest, h, hm, hn⟩
    cases matched with
    | nil => cases h
    | cons t matched =>
      obtain ⟨rfl, rfl⟩ := List.cons.inj h
      obtain ⟨suffix, hs, hm⟩ := matches_many_iff.mp hm
      exact ⟨suffix, hs, matched, rest, rfl, hm, hn⟩
  · rintro ⟨suffix, hs, matched, rest, rfl, hm, hn⟩
    exact ⟨.many :: matched, rest, rfl, matches_many_iff.mpr ⟨suffix, hs, hm⟩, hn⟩

/-- A pattern that overruns a value overruns each suffix of it that it matches. -/
theorem Overruns.of_suffix {suffix : List UInt16} (h : Overruns R p value)
    (hs : suffix <:+ value) (hm : Matches R p suffix) : Overruns R p suffix := by
  obtain ⟨matched, rest, rfl, hmatched, hn⟩ := h
  obtain ⟨front, back, rfl, hfront, -⟩ := matches_append_iff.mp hm
  exact ⟨matched, rest, rfl, hfront.between hmatched (List.prefix_append ..) hs, hn⟩

end

/-! ### What the matcher decides -/

/-- The result tells whether the value matches, or is the failed access of a pattern that
overruns it. -/
def Decides (R : UInt16 → UInt16 → Prop) (p : List (Token UInt16)) (value : List UInt16) :
    Except Exception Bool → Prop
  | .ok b => (b = true ↔ Matches R p value) ∧ ¬ Overruns R p value
  | .error e => e = .indexOutOfRange ∧ Overruns R p value

-- Trying suffixes from the shortest on decides a pattern that begins with `*`.
private theorem decides_anyM {R : UInt16 → UInt16 → Prop} {p : List (Token UInt16)}
    {tryFrom : Nat → Except Exception Bool} {suffix : Nat → List UInt16} {starts : List Nat}
    (hsorted : starts.Pairwise fun i j => suffix i <:+ suffix j)
    (h : ∀ i ∈ starts, Decides R p (suffix i) (tryFrom i)) :
    match starts.anyM tryFrom with
    | .ok b => (b = true ↔ ∃ i ∈ starts, Matches R p (suffix i)) ∧
        ∀ i ∈ starts, ¬ Overruns R p (suffix i)
    | .error e => e = .indexOutOfRange ∧ ∃ i ∈ starts, Overruns R p (suffix i) := by
  induction starts with
  | nil => simp [pure, Except.pure]
  | cons i starts ih =>
    obtain ⟨hi, hsorted⟩ := List.pairwise_cons.mp hsorted
    have hfirst := h i (List.mem_cons_self ..)
    have hrest := ih hsorted fun j hj => h j (List.mem_cons_of_mem _ hj)
    rw [List.anyM_cons]
    cases ht : tryFrom i with
    | error e =>
      rw [ht] at hfirst
      exact ⟨hfirst.1, i, List.mem_cons_self .., hfirst.2⟩
    | ok b =>
      rw [ht] at hfirst
      obtain ⟨hb, hover⟩ := hfirst
      cases b with
      | true =>
        refine ⟨iff_of_true rfl ⟨i, List.mem_cons_self .., hb.mp rfl⟩, ?_⟩
        intro j hj hoverj
        -- A longer suffix that is overrun would make this one overrun.
        rcases List.mem_cons.mp hj with rfl | hj
        · exact hover hoverj
        · exact hover (hoverj.of_suffix (hi j hj) (hb.mp rfl))
      | false =>
        have hno : ¬ Matches R p (suffix i) := fun hm => Bool.false_ne_true (hb.mpr hm)
        simp only [List.exists_mem_cons_iff, List.forall_mem_cons, hno, hover, false_or,
          not_false_eq_true, true_and]
        exact hrest

section
variable {R : UInt16 → UInt16 → Prop} {p p' : List (Token UInt16)} {value value' : List UInt16}

private theorem Decides.congr {r : Except Exception Bool} (h : Decides R p value r)
    (hm : Matches R p' value' ↔ Matches R p value)
    (ho : Overruns R p' value' ↔ Overruns R p value) : Decides R p' value' r := by
  cases r with
  | ok b => exact ⟨h.1.trans hm.symm, fun h' => h.2 (ho.mp h')⟩
  | error e => exact ⟨h.1, ho.mpr h.2⟩

private theorem decides_false (hm : ¬ Matches R p value) (ho : ¬ Overruns R p value) :
    Decides R p value (.ok false) := ⟨iff_of_false Bool.false_ne_true hm, ho⟩

end

private theorem le_of_drop_eq_nil {s : List UInt16} {index : Nat} (h : s.drop index = []) :
    s.length ≤ index := List.drop_eq_nil_iff.mp h

private theorem token_literal {c : UInt16} (hone : c ≠ 0x3F) (hmany : c ≠ 0x2A) :
    token c = .literal c := by
  rw [token, if_neg hone, if_neg hmany]

-- Past the end of the value the matcher gives up, or fails at the next literal.
private theorem globFrom_past (toUpper : UInt16 → UInt16) {rest value pattern : List UInt16}
    {pos : Nat} (hrest : pattern.drop pos = rest) (hp : pos ≤ pattern.length)
    (hv : value.length < pos) :
    match globFrom toUpper value pattern pos with
    | .ok b => b = false ∧ ¬ NeedsLiteral (rest.map token)
    | .error e => e = .indexOutOfRange ∧ NeedsLiteral (rest.map token) := by
  induction rest generalizing pos with
  | nil =>
    have hend : pos = pattern.length := Nat.le_antisymm hp (le_of_drop_eq_nil hrest)
    rw [hend] at hv ⊢
    rw [globFrom_end]
    exact ⟨beq_false_of_ne hv.ne, not_needsLiteral_nil⟩
  | cons c rest ih =>
    have hnext := ih (drop_succ hrest) (lt_length_of_drop hrest) (hv.trans (Nat.lt_succ_self pos))
    by_cases hone : c = 0x3F
    · subst hone
      have htoken : (0x3F :: rest).map token = .one :: rest.map token := rfl
      simp only [globFrom_one hrest, htoken, needsLiteral_one_iff]
      exact hnext
    by_cases hmany : c = 0x2A
    · subst hmany
      obtain ⟨tryFrom, hloop, -⟩ := globFrom_many toUpper value hrest
      have hnone : value.length + 1 - pos = 0 := Nat.sub_eq_zero_of_le hv
      rw [hloop, hnone]
      exact ⟨rfl, not_needsLiteral_many⟩
    · rw [globFrom_literal hrest hone hmany, if_neg hv.ne, charAt_of_le hv.le, List.map_cons,
        token_literal hone hmany]
      exact ⟨rfl, needsLiteral_literal⟩

-- The suffixes that the `for` loop tries are those of what is left of the value.
private theorem exists_start_iff {value : List UInt16} {pos : Nat} (hv : pos ≤ value.length)
    (P : List UInt16 → Prop) :
    (∃ i ∈ (List.range' pos (value.length + 1 - pos)).reverse, P (value.drop i)) ↔
      ∃ suffix, suffix <:+ value.drop pos ∧ P suffix := by
  simp only [List.mem_reverse, List.mem_range'_1]
  constructor
  · rintro ⟨i, ⟨hi, -⟩, h⟩
    exact ⟨value.drop i, List.drop_suffix_drop_left value hi, h⟩
  · rintro ⟨suffix, hs, h⟩
    have hl := hs.length_le
    rw [List.length_drop] at hl
    rw [List.suffix_iff_eq_drop, List.drop_drop, List.length_drop] at hs
    refine ⟨value.length - suffix.length, by omega, ?_⟩
    have hstart : pos + (value.length - pos - suffix.length) = value.length - suffix.length := by
      omega
    rw [hstart] at hs
    rwa [← hs]

-- The matcher decides what is left of the pattern against what is left of the value.
private theorem decides_globFrom {rest value pattern : List UInt16} {pos : Nat}
    (hrest : pattern.drop pos = rest) (hp : pos ≤ pattern.length) (hv : pos ≤ value.length) :
    Decides (SameUpper toUpper) (rest.map token) (value.drop pos)
      (globFrom toUpper value pattern pos) := by
  induction rest generalizing value pattern pos with
  | nil =>
    obtain rfl : pos = pattern.length := Nat.le_antisymm hp (le_of_drop_eq_nil hrest)
    rw [globFrom_end]
    refine ⟨?_, not_overruns_nil⟩
    rw [beq_iff_eq, List.map_nil, matches_nil_iff, List.drop_eq_nil_iff]
    omega
  | cons c rest ih =>
    have hlt := lt_length_of_drop hrest
    by_cases hone : c = 0x3F
    · subst hone
      rw [globFrom_one hrest]
      cases hvalue : value.drop pos with
      | nil =>
        have hpast := globFrom_past toUpper (drop_succ hrest) hlt
          (Nat.lt_succ_of_le (le_of_drop_eq_nil hvalue))
        cases hg : globFrom toUpper value pattern (pos + 1) with
        | ok b =>
          rw [hg] at hpast
          obtain ⟨rfl, hn⟩ := hpast
          exact decides_false not_matches_one_nil fun ho => hn (overruns_one_nil_iff.mp ho)
        | error e =>
          rw [hg] at hpast
          exact ⟨hpast.1, overruns_one_nil_iff.mpr hpast.2⟩
      | cons v more =>
        have hnext := ih (drop_succ hrest) hlt (lt_length_of_drop hvalue)
        rw [drop_succ hvalue] at hnext
        exact hnext.congr matches_one_cons_iff overruns_one_cons_iff
    by_cases hmany : c = 0x2A
    · subst hmany
      obtain ⟨tryFrom, hloop, htry⟩ := globFrom_many toUpper value hrest
      have hsorted : (List.range' pos (value.length + 1 - pos)).reverse.Pairwise
          fun i j => value.drop i <:+ value.drop j := by
        rw [List.pairwise_reverse]
        exact (List.pairwise_lt_range' 1).imp fun h => List.drop_suffix_drop_left value h.le
      have hdecides : ∀ i ∈ (List.range' pos (value.length + 1 - pos)).reverse,
          Decides (SameUpper toUpper) (rest.map token) (value.drop i) (tryFrom i) := by
        intro i hi
        rw [List.mem_reverse, List.mem_range'_1] at hi
        rw [htry i (by omega)]
        exact ih rfl (Nat.zero_le _) (Nat.zero_le _)
      have hloops := decides_anyM hsorted hdecides
      have hmatches := exists_start_iff hv (Matches (SameUpper toUpper) (rest.map token))
      have hoverruns := exists_start_iff hv (Overruns (SameUpper toUpper) (rest.map token))
      rw [← matches_many_iff] at hmatches
      rw [← overruns_many_iff] at hoverruns
      rw [hloop]
      cases hr : (List.range' pos (value.length + 1 - pos)).reverse.anyM tryFrom with
      | ok b =>
        rw [hr] at hloops
        exact ⟨hloops.1.trans hmatches, fun ho =>
          have ⟨i, hi, ho⟩ := hoverruns.mpr ho
          hloops.2 i hi ho⟩
      | error e =>
        rw [hr] at hloops
        exact ⟨hloops.1, hoverruns.mp hloops.2⟩
    · rw [globFrom_literal hrest hone hmany, List.map_cons, token_literal hone hmany]
      cases hvalue : value.drop pos with
      | nil =>
        rw [if_pos (Nat.le_antisymm (le_of_drop_eq_nil hvalue) hv)]
        exact decides_false not_matches_literal_nil not_overruns_literal_nil
      | cons v more =>
        rw [if_neg (lt_length_of_drop hvalue).ne', charAt_of_drop hvalue]
        simp only
        split
        · next hne =>
          exact decides_false (fun hm => hne (matches_literal_cons_iff.mp hm).1)
            fun ho => hne (overruns_literal_cons_iff.mp ho).1
        · next heq =>
          have hsame : SameUpper toUpper c v := not_not.mp heq
          have hnext := ih (drop_succ hrest) hlt (lt_length_of_drop hvalue)
          rw [drop_succ hvalue] at hnext
          exact hnext.congr (matches_literal_cons_iff.trans (and_iff_right hsame))
            (overruns_literal_cons_iff.trans (and_iff_right hsame))

/-- Some part of the pattern that the whole value matches is followed by a `?`, and by a
character that is not a wildcard after any number of further `?`. -/
def GlobOverruns (toUpper : UInt16 → UInt16) (value pattern : List UInt16) : Prop :=
  Overruns (SameUpper toUpper) (pattern.map token) value

/-- `Glob` decides every value and pattern. -/
theorem decides_glob (toUpper : UInt16 → UInt16) (value pattern : List UInt16) :
    Decides (SameUpper toUpper) (pattern.map token) value (glob toUpper value pattern) :=
  decides_globFrom rfl (Nat.zero_le _) (Nat.zero_le _)

/-- `Glob` returns exactly if the pattern does not overrun the value. -/
theorem glob_eq_ok_iff {value pattern : List UInt16} :
    (∃ b, glob toUpper value pattern = .ok b) ↔ ¬ GlobOverruns toUpper value pattern := by
  have hd := decides_glob toUpper value pattern
  cases hg : glob toUpper value pattern with
  | ok b =>
    rw [hg] at hd
    exact iff_of_true ⟨b, rfl⟩ hd.2
  | error e =>
    rw [hg] at hd
    exact iff_of_false (by simp) (not_not.mpr hd.2)

/-- Where `Glob` returns, it returns whether the value matches the pattern. -/
theorem glob_returns_matches {value pattern : List UInt16} {b : Bool}
    (h : glob toUpper value pattern = .ok b) : b = true ↔ GlobMatches toUpper value pattern := by
  have hd := decides_glob toUpper value pattern
  rw [h] at hd
  exact hd.1

/-- `char.ToUpper` on the letters of ASCII. -/
def toUpperAscii (c : UInt16) : UInt16 := if 0x61 ≤ c ∧ c ≤ 0x7A then c - 0x20 else c

/-- A host name matches a pattern with both wildcards, in another case. -/
theorem glob_returns_matches_host :
    GlobMatches toUpperAscii (codeUnits "beast.jetblack.net") (codeUnits "B???t.*Net") :=
  have hglob : glob toUpperAscii (codeUnits "beast.jetblack.net") (codeUnits "B???t.*Net") =
      .ok true := by
    decide +kernel
  (glob_returns_matches hglob).mp rfl

end Globber

end MessageBus.Common
