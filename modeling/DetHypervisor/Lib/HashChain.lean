import Mathlib.Data.Set.Function
import Mathlib.Tactic

/-!
# Hash chains

Each link replaces the value `h` by the hash of `link h l`. If preimages can be read back and do
not collide, two chains agree in their values only if they agree throughout.
-/

namespace HashChain

variable {σ ℓ B H : Type*} (hash : B → H) (start : σ → B) (link : H → ℓ → B)

def value (s : σ) (ls : List ℓ) : H := ls.foldl (fun h l => hash (link h l)) (hash (start s))

def preimagesFrom : H → List ℓ → List B
  | _, [] => []
  | h, l :: ls => link h l :: preimagesFrom (hash (link h l)) ls

def preimages (s : σ) (ls : List ℓ) : List B :=
  start s :: preimagesFrom hash link (hash (start s)) ls

@[simp] lemma value_nil (s : σ) : value hash start link s [] = hash (start s) := rfl

@[simp] lemma value_snoc (s : σ) (ls : List ℓ) (l : ℓ) :
    value hash start link s (ls ++ [l]) = hash (link (value hash start link s ls) l) := by
  simp [value]

lemma preimagesFrom_snoc (h : H) (ls : List ℓ) (l : ℓ) :
    preimagesFrom hash link h (ls ++ [l]) = preimagesFrom hash link h ls ++
      [link (ls.foldl (fun h l => hash (link h l)) h) l] := by
  induction ls generalizing h with
  | nil => simp [preimagesFrom]
  | cons l' ls ih => simp [preimagesFrom, ih]

lemma preimages_snoc (s : σ) (ls : List ℓ) (l : ℓ) : preimages hash start link s (ls ++ [l]) =
      preimages hash start link s ls ++ [link (value hash start link s ls) l] := by
  rw [preimages, preimages, preimagesFrom_snoc, List.cons_append, value]

/-- No two different preimages of the two chains have one hash. -/
def CollisionFree (s s' : σ) (ls ls' : List ℓ) : Prop :=
  Set.InjOn hash
    {b | b ∈ preimages hash start link s ls ∨ b ∈ preimages hash start link s' ls'}

variable {hash start link}

lemma CollisionFree.mono {s s' : σ} {ks ks' ls ls' : List ℓ}
    (h : CollisionFree hash start link s s' ls ls')
    (hks : preimages hash start link s ks ⊆ preimages hash start link s ls)
    (hks' : preimages hash start link s' ks' ⊆ preimages hash start link s' ls') :
    CollisionFree hash start link s s' ks ks' :=
  Set.InjOn.mono (fun _ hb => hb.imp (fun hk => hks hk) (fun hk => hks' hk)) h

section Binding

variable {P : ℓ → Prop}
  (hstart : Function.Injective start)
  (hlink : ∀ {h h' l l'}, P l → P l' → link h l = link h' l' → h = h' ∧ l = l')
  (hapart : ∀ s h l, start s ≠ link h l)

include hstart hlink hapart

lemma value_eq_iff {s s' : σ} {ls ls' : List ℓ} (hls : ∀ l ∈ ls, P l) (hls' : ∀ l ∈ ls', P l)
    (hfree : CollisionFree hash start link s s' ls ls') :
    value hash start link s ls = value hash start link s' ls' ↔ s = s' ∧ ls = ls' := by
  refine ⟨fun heq => ?_, fun h => by rw [h.1, h.2]⟩
  -- the two chains are shortened together, one link at a time from the end
  induction ls using List.reverseRecOn generalizing ls' with
  | nil =>
    have hmem : start s ∈ preimages hash start link s [] := List.mem_cons_self
    cases ls' using List.reverseRecOn with
    | nil =>
      have hmem' : start s' ∈ preimages hash start link s' [] := List.mem_cons_self
      exact ⟨hstart (hfree (.inl hmem) (.inr hmem') heq), rfl⟩
    | append_singleton ks' l' =>
      rw [value_nil, value_snoc] at heq
      have hsame := hfree (.inl hmem) (.inr (by simp [preimages_snoc])) heq
      exact absurd hsame (hapart _ _ _)
  | append_singleton ks l ih =>
    cases ls' using List.reverseRecOn with
    | nil =>
      rw [value_nil, value_snoc] at heq
      have hmem' : start s' ∈ preimages hash start link s' [] := List.mem_cons_self
      have hsame := hfree (.inl (by simp [preimages_snoc])) (.inr hmem') heq
      exact absurd hsame.symm (hapart _ _ _)
    | append_singleton ks' l' =>
      rw [value_snoc, value_snoc] at heq
      have hsame := hfree (.inl (by simp [preimages_snoc])) (.inr (by simp [preimages_snoc])) heq
      have hparts := hlink (hls l (by simp)) (hls' l' (by simp)) hsame
      have hrest := ih (fun k hk => hls k (by simp [hk])) (fun k hk => hls' k (by simp [hk]))
        (hfree.mono (by simp [preimages_snoc]) (by simp [preimages_snoc])) hparts.1
      exact ⟨hrest.1, by rw [hrest.2, hparts.2]⟩

end Binding

end HashChain
