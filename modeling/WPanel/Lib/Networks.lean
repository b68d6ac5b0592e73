import WPanel.Lib.Addresses
import Mathlib.Algebra.Group.Nat.Defs

namespace WPanel.Lib

/-!
# Blocks of Internet addresses

What Python's `ipaddress` says of an address, and what the registries of special-purpose addresses
say of it.

* `Block`, `Block.Covers`, `Block.Apart` — addresses that begin alike, a block within another, and
  blocks without a common address;
* `Address`, `Address.isPrivate` … — the questions `ipaddress` answers;
* `Address.reachable` — what is globally reachable;
* `Address.overlooked` — the shared addresses of providers and the old site-local ones;
* `overlooked_iff` — they are what is neither reachable nor anything `ipaddress` is asked for.
-/

/-! ### Blocks -/

/-- The addresses that agree with `first` but for their last `bits` bits. -/
structure Block where
  first : ℕ
  bits : ℕ
  deriving DecidableEq, Repr

def Block.holds (b : Block) (n : ℕ) : Bool := n / 2 ^ b.bits = b.first / 2 ^ b.bits

/-- One of the blocks holds the address. -/
def within (blocks : List Block) (n : ℕ) : Bool := blocks.any (·.holds n)

def Block.Covers (b c : Block) : Prop :=
  c.bits ≤ b.bits ∧ c.first / 2 ^ b.bits = b.first / 2 ^ b.bits

instance (b c : Block) : Decidable (b.Covers c) := inferInstanceAs (Decidable (_ ∧ _))

def Block.Apart (b c : Block) : Prop :=
  b.first / 2 ^ max b.bits c.bits ≠ c.first / 2 ^ max b.bits c.bits

instance (b c : Block) : Decidable (b.Apart c) := inferInstanceAs (Decidable (_ ≠ _))

section

variable {b c : Block} {blocks : List Block} {n : ℕ}

theorem holds_iff : b.holds n = true ↔ n / 2 ^ b.bits = b.first / 2 ^ b.bits := decide_eq_true_iff

theorem within_iff : within blocks n = true ↔ ∃ b ∈ blocks, b.holds n = true := List.any_eq_true

/-- What agrees but for some last bits agrees but for more of them. -/
private theorem div_eq_div {m n k l : ℕ} (hkl : k ≤ l) (h : m / 2 ^ k = n / 2 ^ k) :
    m / 2 ^ l = n / 2 ^ l := by
  obtain ⟨d, rfl⟩ := Nat.exists_eq_add_of_le hkl
  rw [Nat.pow_add, ← Nat.div_div_eq_div_mul, ← Nat.div_div_eq_div_mul, h]

/-- **What is in a block is in every block that covers it.** -/
theorem Block.Covers.holds (h : b.Covers c) (hn : c.holds n = true) : b.holds n = true :=
  holds_iff.mpr ((div_eq_div h.1 (holds_iff.mp hn)).trans h.2)

/-- **No address is in two blocks that are apart.** -/
theorem Block.Apart.not_holds (h : b.Apart c) (hn : b.holds n = true) : c.holds n = false := by
  refine Bool.eq_false_iff.mpr fun hc => h ?_
  rw [← div_eq_div (Nat.le_max_left _ _) (holds_iff.mp hn),
    ← div_eq_div (Nat.le_max_right _ _) (holds_iff.mp hc)]

theorem within_of_covers (h : ∃ b ∈ blocks, b.Covers c) (hn : c.holds n = true) :
    within blocks n = true := by
  obtain ⟨b, hb, hcovers⟩ := h
  exact within_iff.mpr ⟨b, hb, hcovers.holds hn⟩

theorem not_within_of_apart (h : ∀ c ∈ blocks, b.Apart c) (hn : b.holds n = true) :
    within blocks n = false := by
  refine List.any_eq_false.mpr fun c hc => ?_
  rw [(h c hc).not_holds hn]
  exact Bool.false_ne_true

theorem within_mono {blocks' : List Block} (h : blocks ⊆ blocks') (hn : within blocks n = true) :
    within blocks' n = true := by
  obtain ⟨b, hb, hholds⟩ := within_iff.mp hn
  exact within_iff.mpr ⟨b, h hb, hholds⟩

end

/-! ### Addresses -/

/-- `ip_address(text)`. -/
inductive Address
  | v4 (x : IPv4)
  | v6 (x : IPv6)
  deriving DecidableEq, Repr

def IPv4.value (x : IPv4) : ℕ := ((x.a * 256 + x.b) * 256 + x.c) * 256 + x.d

def IPv6.value (x : IPv6) : ℕ := x.hextets.foldl (fun n h => n * 65536 + h.val) 0

/-- `a.b.c.d/length`. -/
def net4 (a b c d length : ℕ) : Block := ⟨((a * 256 + b) * 256 + c) * 256 + d, 32 - length⟩

/-- `groups::/length`, from the first four groups. -/
def net6 (a b c d length : ℕ) : Block :=
  ⟨(((a * 65536 + b) * 65536 + c) * 65536 + d) * 2 ^ 64, 128 - length⟩

/-! ### What `ipaddress` knows -/

/-- `_IPv4Constants._private_networks`. -/
def private4 : List Block := [
  net4 0 0 0 0 8, net4 10 0 0 0 8, net4 127 0 0 0 8, net4 169 254 0 0 16, net4 172 16 0 0 12,
  net4 192 0 0 0 24, net4 192 0 0 170 31, net4 192 0 2 0 24, net4 192 168 0 0 16,
  net4 198 18 0 0 15, net4 198 51 100 0 24, net4 203 0 113 0 24, net4 240 0 0 0 4,
  net4 255 255 255 255 32]

/-- `_IPv4Constants._private_networks_exceptions`. -/
def privateExceptions4 : List Block := [net4 192 0 0 9 32, net4 192 0 0 10 32]

/-- `_IPv6Constants._private_networks`. -/
def private6 : List Block := [
  ⟨1, 0⟩, net6 0 0 0 0 128, ⟨0xFFFF * 2 ^ 32, 32⟩, net6 0x64 0xFF9B 1 0 48, net6 0x100 0 0 0 64,
  net6 0x2001 0 0 0 23, net6 0x2001 0xDB8 0 0 32, net6 0x2002 0 0 0 16, net6 0x3FFF 0 0 0 20,
  net6 0xFC00 0 0 0 7, net6 0xFE80 0 0 0 10]

/-- `_IPv6Constants._private_networks_exceptions`. -/
def privateExceptions6 : List Block := [
  ⟨(0x20010001 * 2 ^ 96) + 1, 0⟩, ⟨(0x20010001 * 2 ^ 96) + 2, 0⟩, net6 0x2001 3 0 0 32,
  net6 0x2001 4 0x112 0 48, net6 0x2001 0x20 0 0 28, net6 0x2001 0x30 0 0 28]

/-- `_IPv6Constants._reserved_networks`. -/
def reserved6 : List Block := [
  net6 0 0 0 0 8, net6 0x100 0 0 0 8, net6 0x200 0 0 0 7, net6 0x400 0 0 0 6, net6 0x800 0 0 0 5,
  net6 0x1000 0 0 0 4, net6 0x4000 0 0 0 3, net6 0x6000 0 0 0 3, net6 0x8000 0 0 0 3,
  net6 0xA000 0 0 0 3, net6 0xC000 0 0 0 3, net6 0xE000 0 0 0 4, net6 0xF000 0 0 0 5,
  net6 0xF800 0 0 0 6, net6 0xFE00 0 0 0 9]

/-- `ipv4_mapped`: the IPv4 address that stands in the last 32 bits. -/
def IPv6.mapped (x : IPv6) : Option ℕ :=
  if x.value / 2 ^ 32 = 0xFFFF then some (x.value % 2 ^ 32) else none

/-- A question that is asked of the IPv4 address where one is mapped. -/
def Address.ask (ask4 ask6 : ℕ → Bool) : Address → Bool
  | .v4 x => ask4 x.value
  | .v6 x =>
    match x.mapped with
    | some n => ask4 n
    | none => ask6 x.value

def Address.isPrivate : Address → Bool :=
  Address.ask (fun n => within private4 n && !within privateExceptions4 n)
    (fun n => within private6 n && !within privateExceptions6 n)

def Address.isLoopback : Address → Bool :=
  Address.ask (net4 127 0 0 0 8).holds (Block.mk 1 0).holds

def Address.isLinkLocal : Address → Bool :=
  Address.ask (net4 169 254 0 0 16).holds (net6 0xFE80 0 0 0 10).holds

def Address.isReserved : Address → Bool :=
  Address.ask (net4 240 0 0 0 4).holds (within reserved6)

def Address.isMulticast : Address → Bool :=
  Address.ask (net4 224 0 0 0 4).holds (net6 0xFF00 0 0 0 8).holds

def Address.isUnspecified : Address → Bool :=
  Address.ask (net4 0 0 0 0 32).holds (net6 0 0 0 0 128).holds

/-! ### What the registries know -/

/-- The blocks of IPv4 addresses that are not globally reachable. -/
def special4 : List Block := [
  net4 0 0 0 0 8, net4 10 0 0 0 8, net4 100 64 0 0 10, net4 127 0 0 0 8, net4 169 254 0 0 16,
  net4 172 16 0 0 12, net4 192 0 0 0 24, net4 192 0 2 0 24, net4 192 168 0 0 16,
  net4 198 18 0 0 15, net4 198 51 100 0 24, net4 203 0 113 0 24, net4 224 0 0 0 4,
  net4 240 0 0 0 4]

/-- Anycast addresses within them that are. -/
def anycast4 : List Block := [net4 192 0 0 9 32, net4 192 0 0 10 32]

def reachable4 (n : ℕ) : Bool := !within special4 n || within anycast4 n

/-- The blocks of unicast IPv6 addresses that are not globally reachable. -/
def special6 : List Block := [
  net6 0x2001 0 0 0 23, net6 0x2001 0xDB8 0 0 32, net6 0x2002 0 0 0 16, net6 0x3FFF 0 0 0 20]

/-- Blocks within them that are. -/
def assigned6 : List Block := [
  ⟨(0x20010001 * 2 ^ 96) + 1, 0⟩, ⟨(0x20010001 * 2 ^ 96) + 2, 0⟩, ⟨(0x20010001 * 2 ^ 96) + 3, 0⟩,
  net6 0x2001 3 0 0 32, net6 0x2001 4 0x112 0 48, net6 0x2001 0x20 0 0 28, net6 0x2001 0x30 0 0 28]

/-- Global unicast addresses are in `2000::/3`, and translated ones in `64:ff9b::/96`. -/
def reachable6 (n : ℕ) : Bool :=
  ((net6 0x2000 0 0 0 3).holds n && (!within special6 n || within assigned6 n))
    || (Block.mk (0x64FF9B * 2 ^ 96) 32).holds n

/-- The address is globally reachable. -/
def Address.reachable : Address → Bool := Address.ask reachable4 reachable6

/-- `100.64.0.0/10`, which providers share, and `fec0::/10`, which sites used. -/
def Address.overlooked : Address → Bool :=
  Address.ask (net4 100 64 0 0 10).holds (net6 0xFEC0 0 0 0 10).holds

/-! ### What both overlook -/

private theorem foldl_lt (hextets : List (Fin 65536)) (n : ℕ) :
    hextets.foldl (fun n h => n * 65536 + h.val) n < (n + 1) * 65536 ^ hextets.length := by
  induction hextets generalizing n with
  | nil => simp
  | cons h rest ih =>
    refine (ih _).trans_le ?_
    rw [List.length_cons, Nat.pow_succ', ← Nat.mul_assoc]
    refine Nat.mul_le_mul_right _ ?_
    show n * 65536 + h.val + 1 ≤ (n + 1) * 65536
    have := h.isLt
    omega

theorem IPv6.value_lt (x : IPv6) : x.value < 2 ^ 128 := by
  have h := foldl_lt x.hextets 0
  rw [x.length_eq] at h
  have hsize : (0 + 1) * 65536 ^ 8 = 2 ^ 128 := by decide +kernel
  exact hsize ▸ h

/-- Every question is asked of one number: of an IPv4 address or of an IPv6 address. -/
theorem Address.ask_cases (a : Address) : (∃ n, ∀ ask4 ask6, a.ask ask4 ask6 = ask4 n)
    ∨ ∃ n < 2 ^ 128, ∀ ask4 ask6, a.ask ask4 ask6 = ask6 n := by
  cases a with
  | v4 x => exact .inl ⟨x.value, fun _ _ => rfl⟩
  | v6 x =>
    cases hmapped : x.mapped with
    | some n => exact .inl ⟨n, fun _ _ => by rw [Address.ask, hmapped]⟩
    | none => exact .inr ⟨x.value, x.value_lt, fun _ _ => by rw [Address.ask, hmapped]⟩

/-- Nothing is asked of the addresses that providers share, and they are not reachable. -/
private theorem overlooked4_iff (n : ℕ) : (net4 100 64 0 0 10).holds n = true
    ↔ reachable4 n = false ∧ (within private4 n && !within privateExceptions4 n) = false
      ∧ (net4 224 0 0 0 4).holds n = false ∧ (net4 127 0 0 0 8).holds n = false
      ∧ (net4 169 254 0 0 16).holds n = false ∧ (net4 240 0 0 0 4).holds n = false
      ∧ (net4 0 0 0 0 32).holds n = false := by
  have hcovers : ∀ b ∈ special4, b = net4 100 64 0 0 10 ∨ (∃ c ∈ private4, c.Covers b)
      ∨ b = net4 224 0 0 0 4 := by decide +kernel
  constructor
  · intro hshared
    have hspecial : within special4 n = true :=
      within_iff.mpr ⟨_, by decide +kernel, hshared⟩
    have hanycast : within anycast4 n = false :=
      not_within_of_apart (by decide +kernel) hshared
    have hprivate : within private4 n = false :=
      not_within_of_apart (by decide +kernel) hshared
    have hapart : ∀ b : Block, (net4 100 64 0 0 10).Apart b → b.holds n = false := fun b h =>
      h.not_holds hshared
    refine ⟨?_, ?_, hapart _ (by decide +kernel), hapart _ (by decide +kernel),
      hapart _ (by decide +kernel), hapart _ (by decide +kernel), hapart _ (by decide +kernel)⟩
    · rw [reachable4, hspecial, hanycast]
      rfl
    · rw [hprivate]
      rfl
  · rintro ⟨hreach, hprivate, hmulticast, -⟩
    rw [reachable4, Bool.or_eq_false_iff, Bool.not_eq_false'] at hreach
    obtain ⟨b, hb, hholds⟩ := within_iff.mp hreach.1
    rcases hcovers b hb with rfl | hcovered | rfl
    · exact hholds
    · -- a private block: only its exceptions are let through, and these are reachable
      rw [within_of_covers hcovered hholds, Bool.true_and, Bool.not_eq_false'] at hprivate
      exact absurd (hreach.2.symm.trans hprivate) Bool.false_ne_true
    · exact absurd (hmulticast.symm.trans hholds) Bool.false_ne_true

/-- Blocks of this size see only the first ten bits. -/
private theorem holds_floor {b : Block} (h : 118 ≤ b.bits) (n : ℕ) :
    b.holds (n / 2 ^ 118 * 2 ^ 118) = b.holds n := by
  have hfloor : n / 2 ^ 118 * 2 ^ 118 / 2 ^ 118 = n / 2 ^ 118 :=
    Nat.mul_div_cancel _ (Nat.two_pow_pos _)
  rw [Bool.eq_iff_iff, holds_iff, holds_iff, div_eq_div h hfloor]

private theorem within_floor {blocks : List Block} (h : ∀ b ∈ blocks, 118 ≤ b.bits) (n : ℕ) :
    within blocks (n / 2 ^ 118 * 2 ^ 118) = within blocks n := by
  rw [Bool.eq_iff_iff, within_iff, within_iff]
  exact exists_congr fun b => and_congr_right fun hb => by rw [holds_floor (h b hb)]

/-- The large blocks that are no global unicast addresses, but for the site-local ones. -/
private def large6 : List Block :=
  net6 0xFC00 0 0 0 7 :: net6 0xFE80 0 0 0 10 :: net6 0xFF00 0 0 0 8 :: reserved6

/-- Beyond the global unicast addresses everything is in a large block, or site-local. -/
private theorem not_unicast {n : ℕ} (hn : n < 2 ^ 128)
    (h : (net6 0x2000 0 0 0 3).holds n = false) :
    (net6 0xFEC0 0 0 0 10).holds n = true ∨ within large6 n = true := by
  have hall : (List.range 1024).all (fun t => (net6 0x2000 0 0 0 3).holds (t * 2 ^ 118)
      || (net6 0xFEC0 0 0 0 10).holds (t * 2 ^ 118) || within large6 (t * 2 ^ 118)) = true := by
    decide +kernel
  have htop : n / 2 ^ 118 < 1024 := Nat.div_lt_of_lt_mul (hn.trans_eq (by decide +kernel))
  have hcase := List.all_eq_true.mp hall _ (List.mem_range.mpr htop)
  rw [holds_floor (by decide), holds_floor (by decide), within_floor (by decide +kernel), h,
    Bool.false_or, Bool.or_eq_true] at hcase
  exact hcase

/-- Nothing is asked of the addresses that sites used, and they are not reachable. -/
private theorem overlooked6_iff {n : ℕ} (hn : n < 2 ^ 128) :
    (net6 0xFEC0 0 0 0 10).holds n = true
    ↔ reachable6 n = false ∧ (within private6 n && !within privateExceptions6 n) = false
      ∧ (net6 0xFF00 0 0 0 8).holds n = false ∧ (Block.mk 1 0).holds n = false
      ∧ (net6 0xFE80 0 0 0 10).holds n = false ∧ within reserved6 n = false
      ∧ (net6 0 0 0 0 128).holds n = false := by
  have hcovers : ∀ b ∈ special6, ∃ c ∈ private6, c.Covers b := by decide +kernel
  have hexceptions : ∀ b ∈ privateExceptions6, (net6 0x2000 0 0 0 3).Covers b := by decide +kernel
  constructor
  · intro hsite
    have hapart : ∀ b : Block, (net6 0xFEC0 0 0 0 10).Apart b → b.holds n = false := fun b h =>
      h.not_holds hsite
    refine ⟨?_, ?_, hapart _ (by decide +kernel), hapart _ (by decide +kernel),
      hapart _ (by decide +kernel), not_within_of_apart (by decide +kernel) hsite,
      hapart _ (by decide +kernel)⟩
    · rw [reachable6, hapart _ (by decide +kernel), hapart _ (by decide +kernel)]
      rfl
    · rw [@not_within_of_apart _ private6 _ (by decide +kernel) hsite]
      rfl
  · rintro ⟨hreach, hprivate, hmulticast, -, hlink, hreserved, -⟩
    rw [reachable6, Bool.or_eq_false_iff] at hreach
    cases hunicast : (net6 0x2000 0 0 0 3).holds n with
    | true =>
      -- a special block is a private one: only its exceptions are let through
      rw [hunicast, Bool.true_and, Bool.or_eq_false_iff, Bool.not_eq_false'] at hreach
      obtain ⟨b, hb, hholds⟩ := within_iff.mp hreach.1.1
      rw [within_of_covers (hcovers b hb) hholds, Bool.true_and, Bool.not_eq_false'] at hprivate
      have hassigned := @within_mono _ _ assigned6 (by decide +kernel) hprivate
      exact absurd (hreach.1.2.symm.trans hassigned) Bool.false_ne_true
    | false =>
      refine (not_unicast hn hunicast).resolve_right fun hlarge => ?_
      obtain ⟨b, hb, hholds⟩ := within_iff.mp hlarge
      have hno : within privateExceptions6 n = false := by
        refine Bool.eq_false_iff.mpr fun hexception => ?_
        obtain ⟨c, hc, hcholds⟩ := within_iff.mp hexception
        exact absurd (hunicast.symm.trans ((hexceptions c hc).holds hcholds)) Bool.false_ne_true
      rw [hno, Bool.not_false, Bool.and_true] at hprivate
      rcases List.mem_cons.mp hb with rfl | hb
      · have hmem : within private6 n = true := within_iff.mpr ⟨_, by decide +kernel, hholds⟩
        exact absurd (hprivate.symm.trans hmem) Bool.false_ne_true
      · rcases List.mem_cons.mp hb with rfl | hb
        · exact absurd (hlink.symm.trans hholds) Bool.false_ne_true
        · rcases List.mem_cons.mp hb with rfl | hb
          · exact absurd (hmulticast.symm.trans hholds) Bool.false_ne_true
          · exact absurd (hreserved.symm.trans (within_iff.mpr ⟨b, hb, hholds⟩)) Bool.false_ne_true

/-- **What is not reachable, and neither private, multicast, loopback, link-local, reserved nor
    unspecified, is shared by providers or site-local.** -/
theorem overlooked_iff (a : Address) : a.overlooked = true
    ↔ a.reachable = false ∧ a.isPrivate = false ∧ a.isMulticast = false ∧ a.isLoopback = false
      ∧ a.isLinkLocal = false ∧ a.isReserved = false ∧ a.isUnspecified = false := by
  unfold Address.overlooked Address.reachable Address.isPrivate Address.isMulticast
    Address.isLoopback Address.isLinkLocal Address.isReserved Address.isUnspecified
  obtain ⟨n, hask⟩ | ⟨n, hn, hask⟩ := a.ask_cases
  · simp only [hask]
    exact overlooked4_iff n
  · simp only [hask]
    exact overlooked6_iff hn

end WPanel.Lib
