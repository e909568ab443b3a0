import UtxoChain.Digest.Double

/-!
# Collisions

Nothing is assumed of the hash function. What follows from its strength is stated about the finitely
many byte strings that are hashed in the case at hand: no two of them have one double hash.
-/

namespace UtxoChain

/-- No two of some byte strings have one double hash. -/
def CollisionFree (strings : List Bytes) : Prop :=
  ∀ one ∈ strings, ∀ other ∈ strings, doubleHash one = doubleHash other → one = other

instance (strings : List Bytes) : Decidable (CollisionFree strings) :=
  inferInstanceAs (Decidable (∀ one ∈ strings, ∀ other ∈ strings,
    doubleHash one = doubleHash other → one = other))

/-- Among fewer strings there are no more collisions. -/
theorem CollisionFree.mono {strings fewer : List Bytes} (h : CollisionFree strings)
    (hSubset : fewer ⊆ strings) : CollisionFree fewer :=
  fun one hOne other hOther => h one (hSubset hOne) other (hSubset hOther)

end UtxoChain
