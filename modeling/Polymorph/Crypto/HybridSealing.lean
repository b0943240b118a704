import Mathlib.Logic.Basic

/-!
# Sealing for a public key

Hybrid encryption over arbitrary types: a key agreement whose two sides compute the same shared
value, and an authenticated cipher. A message is sealed with a fresh secret for a public key; the
holder of the secret of that key opens it, under the same associated data.
-/

set_option autoImplicit false

namespace Sealing

/-- A key agreement. The exchange fails with an unusable public value. -/
structure Agreement (S P K : Type) where
  publicKey : S → P
  exchange : S → P → Option K
  /-- Both sides compute the same. -/
  exchange_comm : ∀ a b, exchange a (publicKey b) = exchange b (publicKey a)

/-- A cipher with associated data; encryption fails where a message is too long for it. -/
structure Aead (K N M A C : Type) where
  encrypt : K → N → M → A → Option C
  decrypt : K → N → C → A → Option M
  /-- Decryption accepts the ciphertexts of the cipher under their associated data, and no others. -/
  decrypt_eq_some_iff : ∀ k n c a m, decrypt k n c a = some m ↔ encrypt k n m a = some c

/-- A sealed message. -/
structure Box (P N C : Type) where
  ephemeral : P
  nonce : N
  ciphertext : C
deriving DecidableEq

variable {S P K K' N M A C : Type} (agreement : Agreement S P K) (aead : Aead K' N M A C)
  (derive : K → A → K')

/-- Sealing for `recipient`, with the secret `e` and the nonce `n`. -/
def sealFor (e : S) (n : N) (recipient : P) (a : A) (m : M) : Option (Box P N C) :=
  match agreement.exchange e recipient with
  | none => none
  | some shared =>
      match aead.encrypt (derive shared a) n m a with
      | none => none
      | some ciphertext => some ⟨agreement.publicKey e, n, ciphertext⟩

/-- Opening with the secret `s`. -/
def openBox (s : S) (a : A) (box : Box P N C) : Option M :=
  match agreement.exchange s box.ephemeral with
  | none => none
  | some shared => aead.decrypt (derive shared a) box.nonce box.ciphertext a

/-- What a successful sealing made. -/
theorem sealFor_eq_some_iff {e : S} {n : N} {recipient : P} {a : A} {m : M} {box : Box P N C} :
    sealFor agreement aead derive e n recipient a m = some box ↔
      box.ephemeral = agreement.publicKey e ∧ box.nonce = n ∧
        ∃ shared, agreement.exchange e recipient = some shared ∧
          aead.encrypt (derive shared a) n m a = some box.ciphertext := by
  unfold sealFor
  cases hshared : agreement.exchange e recipient with
  | none =>
      constructor
      · intro h
        cases h
      · rintro ⟨-, -, shared, h, -⟩
        cases h
  | some shared =>
      dsimp only
      cases hcipher : aead.encrypt (derive shared a) n m a with
      | none =>
          constructor
          · intro h
            cases h
          · rintro ⟨-, -, shared', h, h'⟩
            cases h
            rw [hcipher] at h'
            cases h'
      | some ciphertext =>
          constructor
          · intro h
            cases h
            exact ⟨rfl, rfl, shared, rfl, hcipher⟩
          · rintro ⟨hephemeral, hnonce, shared', h, h'⟩
            cases h
            rw [hcipher] at h'
            cases h'
            obtain ⟨ephemeral, nonce, ciphertext'⟩ := box
            cases hephemeral
            cases hnonce
            rfl

/-- **The holder of the secret opens the message**, under the data it was sealed with. -/
theorem openBox_sealFor {e s : S} {n : N} {a : A} {m : M} {box : Box P N C}
    (h : sealFor agreement aead derive e n (agreement.publicKey s) a m = some box) :
    openBox agreement aead derive s a box = some m := by
  obtain ⟨hephemeral, hnonce, shared, hshared, hcipher⟩ :=
    (sealFor_eq_some_iff agreement aead derive).mp h
  rw [agreement.exchange_comm] at hshared
  unfold openBox
  rw [hephemeral, hshared, hnonce]
  exact (aead.decrypt_eq_some_iff _ _ _ _ _).mpr hcipher

/-- Whatever opens is a ciphertext of its message under that data. -/
theorem encrypt_of_openBox {s : S} {a : A} {m : M} {box : Box P N C}
    (h : openBox agreement aead derive s a box = some m) :
    ∃ shared, agreement.exchange s box.ephemeral = some shared ∧
      aead.encrypt (derive shared a) box.nonce m a = some box.ciphertext := by
  unfold openBox at h
  split at h
  · cases h
  · rename_i shared hshared
    exact ⟨shared, hshared, (aead.decrypt_eq_some_iff _ _ _ _ _).mp h⟩

/-- Nothing else comes out of a box, also with another secret whose public key exchanges like that of
the recipient. -/
theorem openBox_unique {e s : S} {n : N} {recipient : P} {a : A} {m m' : M} {box : Box P N C}
    (h : sealFor agreement aead derive e n recipient a m = some box)
    (hsame : agreement.exchange e recipient = agreement.exchange e (agreement.publicKey s))
    (hopen : openBox agreement aead derive s a box = some m') : m' = m := by
  have hown : sealFor agreement aead derive e n (agreement.publicKey s) a m = some box := by
    rw [← h]
    unfold sealFor
    rw [hsame]
  rw [openBox_sealFor agreement aead derive hown] at hopen
  exact (Option.some.inj hopen).symm

end Sealing
