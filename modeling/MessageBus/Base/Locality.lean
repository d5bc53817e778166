/-!
# Operations on one part of a state

A state is seen as parts, one for each key, and a rest that belongs to no key. An
operation is local to a key if it keeps the rest and the parts of other keys, and if what
it makes of its own part depends on that part and the rest alone. Operations local to
different keys commute, as far as parts and rest tell states apart.
-/

namespace MessageBus.Base

universe u v w x y

/-- How a state is seen: its parts by their keys, and the rest. -/
structure Parts (σ : Type u) (κ : Type v) (ν : Type w) (ρ : Type x) where
  part : κ → σ → ν
  rest : σ → ρ

namespace Parts

variable {σ : Type u} {κ : Type v} {ν : Type w} {ρ : Type x} {ε : Type y}

/-- Two states agree on the part of a key and on the rest. -/
structure Agree (p : Parts σ κ ν ρ) (k : κ) (s s' : σ) : Prop where
  part : p.part k s = p.part k s'
  rest : p.rest s = p.rest s'

/-- Two states agree on every part and on the rest. -/
structure Same (p : Parts σ κ ν ρ) (s s' : σ) : Prop where
  part : ∀ k, p.part k s = p.part k s'
  rest : p.rest s = p.rest s'

/-- An observation depends on the part of a key and on the rest. -/
def Reads (p : Parts σ κ ν ρ) (k : κ) (g : σ → ε) : Prop :=
  ∀ s s', p.Agree k s s' → g s = g s'

/-- An operation concerns the part of a key. -/
structure Local (p : Parts σ κ ν ρ) (k : κ) (f : σ → σ) : Prop where
  rest : ∀ s, p.rest (f s) = p.rest s
  frame : ∀ s k', k' ≠ k → p.part k' (f s) = p.part k' s
  reads : p.Reads k fun s => p.part k (f s)

variable {p : Parts σ κ ν ρ} {k k' : κ} {f g : σ → σ} {s s' : σ}

/-- Agreement is symmetric. -/
theorem Agree.symm (h : p.Agree k s s') : p.Agree k s' s := ⟨h.part.symm, h.rest.symm⟩

/-- A local operation keeps the agreement on its part. -/
theorem Local.agree (hf : p.Local k f) (h : p.Agree k s s') : p.Agree k (f s) (f s') := by
  refine ⟨hf.reads s s' h, ?_⟩
  rw [hf.rest, hf.rest, h.rest]

/-- To the part of another key, a local operation does nothing. -/
theorem Local.agree_of_ne (hf : p.Local k f) (hk : k' ≠ k) (s : σ) : p.Agree k' (f s) s :=
  ⟨hf.frame s k' hk, hf.rest s⟩

/-! ### Building local operations -/

/-- To do nothing is local. -/
theorem Local.id : p.Local k fun s => s where
  rest _ := rfl
  frame _ _ _ := rfl
  reads _ _ h := h.part

/-- One local step after another is local. -/
theorem Local.comp (hg : p.Local k g) (hf : p.Local k f) : p.Local k fun s => g (f s) where
  rest s := (hg.rest (f s)).trans (hf.rest s)
  frame s k' hk := (hg.frame (f s) k' hk).trans (hf.frame s k' hk)
  reads _ _ h := hg.reads _ _ (hf.agree h)

/-- An operation is local if at every state it is a local one, and is the same one at the
states that agree. -/
theorem Local.of_agree (hh : ∀ s, ∃ g, p.Local k g ∧ ∀ s', p.Agree k s s' → f s' = g s') :
    p.Local k f where
  rest s := by
    obtain ⟨g, hg, he⟩ := hh s
    rw [he s ⟨rfl, rfl⟩, hg.rest]
  frame s k' hk := by
    obtain ⟨g, hg, he⟩ := hh s
    rw [he s ⟨rfl, rfl⟩, hg.frame s k' hk]
  reads s s' h := by
    obtain ⟨g, hg, he⟩ := hh s
    simp only [he s ⟨rfl, rfl⟩, he s' h]
    exact hg.reads s s' h

/-- What an operation does may depend on what it reads. -/
theorem Local.bind {f : ε → σ → σ} {g : σ → ε} (hf : ∀ s, p.Local k (f (g s)))
    (hg : p.Reads k g) : p.Local k fun s => f (g s) s := by
  apply Local.of_agree
  intro s
  refine ⟨f (g s), hf s, fun s' h => ?_⟩
  rw [hg s s' h]

/-- A choice between local steps is local where the part decides it. -/
theorem Local.ite {c : σ → Prop} [∀ s, Decidable (c s)] (hc : p.Reads k c) (hf : p.Local k f)
    (hg : p.Local k g) : p.Local k fun s => if c s then f s else g s where
  rest s := by
    split
    · exact hf.rest s
    · exact hg.rest s
  frame s k' hk := by
    split
    · exact hf.frame s k' hk
    · exact hg.frame s k' hk
  reads s s' h := by
    have hcs : c s = c s' := hc s s' h
    by_cases hs : c s
    · have hs' : c s' := hcs ▸ hs
      simp only [hs, hs', if_true]
      exact hf.reads s s' h
    · have hs' : ¬ c s' := hcs ▸ hs
      simp only [hs, hs', if_false]
      exact hg.reads s s' h

/-- Local steps along a list are local. -/
theorem Local.foldl {f : σ → ε → σ} {es : List ε}
    (hf : ∀ e ∈ es, p.Local k fun s => f s e) : p.Local k fun s => es.foldl f s := by
  induction es with
  | nil => exact .id
  | cons e es ih =>
    have htail := ih fun e' he' => hf e' (List.mem_cons_of_mem _ he')
    exact htail.comp (hf e (List.mem_cons_self ..))

/-! ### States that are functions -/

/-- A family of states, each seen in the same way. -/
def family (p : Parts σ κ ν ρ) (ι : Type y) : Parts (ι → σ) κ (ι → ν) (ι → ρ) where
  part k s i := p.part k (s i)
  rest s i := p.rest (s i)

/-- An operation on every member of a family. -/
theorem Local.pointwise {ι : Type y} {f : ι → σ → σ} (hf : ∀ i, p.Local k (f i)) :
    (p.family ι).Local k fun s i => f i (s i) where
  rest s := funext fun i => (hf i).rest (s i)
  frame s k' hk := funext fun i => (hf i).frame (s i) k' hk
  reads s s' h := by
    funext i
    exact (hf i).reads _ _ ⟨congrFun h.part i, congrFun h.rest i⟩

/-- An operation on one member of a family. -/
theorem Local.update {ι : Type y} [DecidableEq ι] {f : ι → σ → σ} (i : ι)
    (hf : p.Local k (f i)) : (p.family ι).Local k fun s j => if j = i then f j (s j) else s j := by
  apply Local.pointwise (f := fun j s => if j = i then f j s else s)
  intro j
  by_cases hj : j = i
  · subst hj
    simpa only [if_true] using hf
  · simpa only [hj, if_false] using Local.id

/-! ### Commutation -/

/-- Operations local to different keys lead to the same state in either order. -/
theorem Local.commute (hf : p.Local k f) (hg : p.Local k' g) (hk : k ≠ k') (s : σ) :
    p.Same (g (f s)) (f (g s)) where
  part j := by
    by_cases hj : j = k
    · subst hj
      have hstep := hf.reads _ _ (hg.agree_of_ne hk s)
      exact (hg.frame (f s) j hk).trans hstep.symm
    · by_cases hj' : j = k'
      · subst hj'
        have hstep := hg.reads _ _ (hf.agree_of_ne hj s)
        exact hstep.trans (hf.frame (g s) j hj).symm
      · rw [hg.frame _ j hj', hf.frame _ j hj, hf.frame _ j hj, hg.frame _ j hj']
  rest := by rw [hg.rest, hf.rest, hf.rest, hg.rest]

end Parts

end MessageBus.Base
