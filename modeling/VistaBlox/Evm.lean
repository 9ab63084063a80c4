import Mathlib.Data.Fintype.BigOperators
import Mathlib.Data.BitVec
import Mathlib.Data.Finite.Prod

/-!
# Contract accounts, access control and tokens

160-bit addresses, 256-bit token identifiers, reverting calls, the role table and pause flag
of the library contracts, and an ERC-20 token known through what its transfers promise.
Amounts are naturals; a checked addition reverts beyond 256 bits.
-/
namespace Evm

structure Address where
  bits : BitVec 160
  deriving DecidableEq

structure TokenId where
  bits : BitVec 256
  deriving DecidableEq

instance (n : Nat) : OfNat Address n := ⟨⟨BitVec.ofNat 160 n⟩⟩
instance (n : Nat) : OfNat TokenId n := ⟨⟨BitVec.ofNat 256 n⟩⟩

instance : Finite Address := Finite.of_injective (fun a => a.bits.toFin) (by
  rintro ⟨a⟩ ⟨b⟩ h
  exact congrArg Address.mk (BitVec.toFin_injective h))

instance : Finite TokenId := Finite.of_injective (fun a => a.bits.toFin) (by
  rintro ⟨a⟩ ⟨b⟩ h
  exact congrArg TokenId.mk (BitVec.toFin_injective h))

/-- Sums over all addresses and all token identifiers are used in statements
only, so the enumeration is never computed. -/
noncomputable instance : Fintype Address := Fintype.ofFinite Address
noncomputable instance : Fintype TokenId := Fintype.ofFinite TokenId

structure Msg where
  sender : Address
  timestamp : Nat
  deriving DecidableEq

/-- `if (c) revert e` -/
def revertIf (c : Prop) [Decidable c] (e : ε) : Except ε Unit := if c then .error e else .ok ()

theorem revertIf_bind_ok [Decidable c] : (revertIf c e >>= f) = .ok a ↔ ¬c ∧ f () = .ok a := by
  by_cases h : c <;> simp [revertIf, h, bind, Except.bind]

theorem bind_ok {x : Except ε α} {f : α → Except ε β} {b : β} :
    (x >>= f) = .ok b ↔ ∃ a, x = .ok a ∧ f a = .ok b := by
  cases x <;> simp [bind, Except.bind]

/-- One past the largest 256-bit word. -/
def wordBound : Nat := 2 ^ 256

def checkedAdd (overflow : ε) (a b : Nat) : Except ε Nat := if a + b < wordBound then .ok (a + b) else .error overflow

def checkedSub (underflow : ε) (a b : Nat) : Except ε Nat := if b ≤ a then .ok (a - b) else .error underflow

variable {a b : Nat}

theorem checkedAdd_bind_ok : (checkedAdd e a b >>= f) = .ok r ↔ a + b < wordBound ∧ f (a + b) = .ok r := by
  by_cases h : a + b < wordBound <;> simp [checkedAdd, h, bind, Except.bind]

theorem checkedSub_bind_ok : (checkedSub e a b >>= f) = .ok r ↔ b ≤ a ∧ f (a - b) = .ok r := by
  by_cases h : b ≤ a <;> simp [checkedSub, h, bind, Except.bind]

/-- The role table of an access-controlled contract. Every role is administered
by the default admin role, which is how a table starts. -/
structure Access (Role : Type) where
  hasRole : Role → Address → Bool

section Roles

variable {Role : Type} [DecidableEq Role]

def Access.set (t : Access Role) (role : Role) (account : Address) (b : Bool) : Access Role :=
  ⟨fun r a => if r = role ∧ a = account then b else t.hasRole r a⟩

def Access.deployed (admin : Role) (deployer : Address) : Access Role :=
  ⟨fun r a => decide (r = admin ∧ a = deployer)⟩

/-- The inherited entry points of an access-controlled contract. -/
inductive RoleCall (Role : Type) where
  | grantRole : Role → Address → RoleCall Role
  | revokeRole : Role → Address → RoleCall Role
  | renounceRole : Role → Address → RoleCall Role
  deriving DecidableEq

/-- The reverts of the library contracts both token and escrow inherit. -/
inductive LibraryError (Role : Type) where
  | accessControlUnauthorizedAccount : Address → Role → LibraryError Role
  | accessControlBadConfirmation : LibraryError Role
  | enforcedPause : LibraryError Role
  | expectedPause : LibraryError Role
  deriving DecidableEq

def Access.onlyRole (t : Access Role) (lib : LibraryError Role → ε) (m : Msg) (role : Role) : Except ε Unit :=
  revertIf (t.hasRole role m.sender = false) (lib (.accessControlUnauthorizedAccount m.sender role))

def Access.call (t : Access Role) (lib : LibraryError Role → ε) (admin : Role) (m : Msg) :
    RoleCall Role → Except ε (Access Role)
  | .grantRole role account => do
    t.onlyRole lib m admin
    return t.set role account true
  | .revokeRole role account => do
    t.onlyRole lib m admin
    return t.set role account false
  | .renounceRole role callerConfirmation => do
    revertIf (callerConfirmation ≠ m.sender) (lib .accessControlBadConfirmation)
    return t.set role m.sender false

def whenNotPaused (lib : LibraryError Role → ε) (paused : Bool) : Except ε Unit :=
  revertIf (paused = true) (lib .enforcedPause)

def whenPaused (lib : LibraryError Role → ε) (paused : Bool) : Except ε Unit :=
  revertIf (paused = false) (lib .expectedPause)

end Roles

/-- An amount has moved between two balances and nothing else has changed. -/
structure Moved (before after : Address → Nat) (src dst : Address) (amount : Nat) : Prop where
  covered : amount ≤ before src
  self : src = dst → ∀ a, after a = before a
  debit : src ≠ dst → after src + amount = before src
  credit : src ≠ dst → after dst = before dst + amount
  other : ∀ a, a ≠ src → a ≠ dst → after a = before a

/-- A token contract whose transfer functions either revert or move exactly the
stated amount. -/
structure Erc20 where
  Ledger : Type
  balanceOf : Ledger → Address → Nat
  transfer : Ledger → (sender recipient : Address) → Nat → Option Ledger
  transferFrom : Ledger → (spender sender recipient : Address) → Nat → Option Ledger
  transfer_moves : ∀ l l' a b n, transfer l a b n = some l' → Moved (balanceOf l) (balanceOf l') a b n
  transferFrom_moves : ∀ l l' c a b n, transferFrom l c a b n = some l' →
    Moved (balanceOf l) (balanceOf l') a b n

/-- Move an amount between two entries of a balance table. -/
def shift (b : Address → Nat) (src dst : Address) (n : Nat) : Address → Nat :=
  let debited := Function.update b src (b src - n)
  Function.update debited dst (debited dst + n)

theorem shift_moved (b : Address → Nat) (src dst : Address) (n : Nat) (h : n ≤ b src) :
    Moved b (shift b src dst n) src dst n where
  covered := h
  self he a := by
    subst he
    by_cases ha : a = src <;> simp [shift, ha]
    omega
  debit hne := by simp [shift, hne]; omega
  credit hne := by simp [shift, Ne.symm hne]
  other a hf ht := by simp [shift, hf, ht]

/-- The plain token: balances only, with every spender approved. -/
def plainToken : Erc20 where
  Ledger := Address → Nat
  balanceOf l := l
  transfer l a b n := if n ≤ l a then some (shift l a b n) else none
  transferFrom l _ a b n := if n ≤ l a then some (shift l a b n) else none
  transfer_moves l l' a b n h := by
    split at h
    · cases h; exact shift_moved l a b n ‹_›
    · cases h
  transferFrom_moves l l' c a b n h := by
    split at h
    · cases h; exact shift_moved l a b n ‹_›
    · cases h

section Sums

variable {α : Type} [Fintype α] [DecidableEq α]

theorem sum_update (f : α → Nat) (a : α) (n : Nat) : (∑ x, Function.update f a n x) + f a = (∑ x, f x) + n := by
  have h := Finset.sum_update_of_mem (Finset.mem_univ a) f n
  have h' := Finset.add_sum_erase Finset.univ f (Finset.mem_univ a)
  rw [Finset.sdiff_singleton_eq_erase] at h
  omega

theorem sum_change (f g : α → Nat) (a : α) (h : ∀ x, x ≠ a → g x = f x) : (∑ x, g x) + f a = (∑ x, f x) + g a := by
  have hg : g = Function.update f a (g a) := by
    funext x
    by_cases hx : x = a
    · subst hx; simp
    · simp [hx, h x hx]
  have hs := sum_update f a (g a)
  rwa [← hg] at hs

end Sums

end Evm
