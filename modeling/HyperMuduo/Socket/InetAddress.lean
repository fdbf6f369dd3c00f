import Mathlib.Data.List.Basic
import Mathlib.Data.List.TakeWhile

/-!
# `InetAddress`

Model of `net/InetAddress`. An address is a `sockaddr_in` with its port and address in network order, as
they lie in memory. `inet_pton` and `inet_ntop` are those of the C library for `AF_INET`: four decimal
numbers up to 255 with dots between them, without leading zeros.

* `inetPton_eq_some`: `inet_pton` accepts exactly the texts `inet_ntop` writes.
* **`construct_accepts`**: what an address built from a text and a port says of itself.
* **`construct_toIp_toPort`**: an address that came from the kernel is rebuilt from its own text and port.
* **`toIpPort_inj`**: `toIpPort` tells addresses apart.
-/

namespace HyperMuduo.Net

/-- `AF_INET`. -/
def afInet : Nat := 2

/-- `INET_ADDRSTRLEN`. -/
def inetAddrStrLen : Nat := 16

/-- `in_addr`, in network order. -/
structure InAddr where
  a : UInt8
  b : UInt8
  c : UInt8
  d : UInt8
  deriving DecidableEq, Repr

structure SockAddrIn where
  sinFamily : Nat
  sinPort : UInt8 × UInt8
  sinAddr : InAddr
  deriving DecidableEq, Repr

def htons (port : UInt16) : UInt8 × UInt8 :=
  (UInt8.ofNat (port.toNat / 256), UInt8.ofNat (port.toNat % 256))

def ntohs (port : UInt8 × UInt8) : UInt16 := UInt16.ofNat (256 * port.1.toNat + port.2.toNat)

/-- A number as `std::to_string` and `%u` write it. -/
def decimal (n : Nat) : List Char := Nat.toDigits 10 n

/-- The text `inet_ntop` writes. -/
def inetNtop (addr : InAddr) : List Char :=
  decimal addr.a.toNat ++ '.' :: (decimal addr.b.toNat ++ '.' :: (decimal addr.c.toNat ++
    '.' :: decimal addr.d.toNat))

/-- What `inet_pton` has read: the numbers before the last dot, and the number after it. -/
structure Pton where
  done : List Nat
  number : Nat
  sawDigit : Bool
  deriving DecidableEq, Repr

namespace Pton

def start : Pton := ⟨[], 0, false⟩

def step (s : Pton) (ch : Char) : Option Pton :=
  if ch.isDigit then
    let new := s.number * 10 + (ch.toNat - '0'.toNat)
    if s.sawDigit && s.number == 0 then none
    else if 255 < new then none
    else some { s with number := new, sawDigit := true }
  else if ch = '.' ∧ s.sawDigit = true then
    if s.done.length = 3 then none else some ⟨s.done ++ [s.number], 0, false⟩
  else none

end Pton

def inetPton (text : List Char) : Option InAddr :=
  match text.foldlM Pton.step Pton.start with
  | some ⟨[a, b, c], d, true⟩ => some ⟨.ofNat a, .ofNat b, .ofNat c, .ofNat d⟩
  | _ => none

/-- `c_str()`, read up to its end. -/
def cStr (s : String) : List Char := s.toList.takeWhile fun ch => ch ≠ '\x00'

structure InetAddress where
  addr : SockAddrIn
  deriving DecidableEq, Repr

namespace InetAddress

/-- `InetAddress(ip, port)`. A text `inet_pton` refuses leaves the zeros of `memset`. -/
def construct (ip : String) (port : UInt16) : InetAddress where
  addr :=
    { sinFamily := afInet
      sinPort := htons port
      sinAddr := (inetPton (cStr ip)).getD ⟨0, 0, 0, 0⟩ }

/-- `InetAddress(port)`. -/
def ofPort (port : UInt16) : InetAddress := construct "0.0.0.0" port

/-- `inet_ntop` refuses a buffer that is too short, and `toIp` then has an empty string. -/
def toIp (x : InetAddress) : String :=
  if (inetNtop x.addr.sinAddr).length < inetAddrStrLen then String.ofList (inetNtop x.addr.sinAddr)
  else ""

def toPort (x : InetAddress) : UInt16 := ntohs x.addr.sinPort

def toIpPort (x : InetAddress) : String := x.toIp ++ ":" ++ toString x.toPort.toNat

end InetAddress

/-! ## Numbers -/

theorem decimal_of_lt {n : Nat} (h : n < 10) : decimal n = [n.digitChar] := Nat.toDigits_of_lt_base h

/-- One more digit. -/
theorem decimal_snoc {n d : Nat} (hn : n ≠ 0) (hd : d < 10) :
    decimal (n * 10 + d) = decimal n ++ [d.digitChar] := by
  have happend := Nat.toDigits_append_toDigits (b := 10) (by decide) (Nat.pos_of_ne_zero hn) hd
  rw [Nat.toDigits_of_lt_base hd, Nat.mul_comm] at happend
  exact happend.symm

theorem decimal_injective {n m : Nat} (h : decimal n = decimal m) : n = m := by
  have hn := Nat.ofDigitChars_ten_toDigits (n := n)
  have hm := Nat.ofDigitChars_ten_toDigits (n := m)
  unfold decimal at h
  rw [← hn, h, hm]

theorem not_mem_decimal {n : Nat} {ch : Char} (h : ch.isDigit = false) : ch ∉ decimal n := by
  intro hmem
  have hdigit := Nat.isDigit_of_mem_toDigits (by decide) (by decide) hmem
  rw [h] at hdigit
  exact absurd hdigit (by simp)

theorem length_decimal_le {n : Nat} (h : n ≤ 255) : (decimal n).length ≤ 3 :=
  (Nat.length_toDigits_le_iff (by decide) (by decide)).mpr (by omega)

/-- A digit is the character of its value. -/
theorem digit_of_isDigit {ch : Char} (h : ch.isDigit = true) :
    ch.toNat - '0'.toNat < 10 ∧ ch = (ch.toNat - '0'.toNat).digitChar := by
  obtain ⟨hlo, hhi⟩ := Char.isDigit_iff_toNat.mp h
  have hlt : ch.toNat - '0'.toNat < 10 := by
    change ch.toNat ≤ 57 at hhi
    change ch.toNat - 48 < 10
    omega
  refine ⟨hlt, Char.toNat_inj.mp ?_⟩
  rw [Nat.toNat_digitChar_of_lt_ten hlt]
  change 48 ≤ ch.toNat at hlo
  change ch.toNat = 48 + (ch.toNat - 48)
  omega

theorem digitChar_digit {d : Nat} (h : d < 10) :
    d.digitChar.isDigit = true ∧ d.digitChar.toNat - '0'.toNat = d := by
  refine ⟨by rw [Nat.isDigit_digitChar]; exact decide_eq_true h, ?_⟩
  exact Nat.toNat_digitChar_sub_48_of_lt_ten h

/-! ## Reading an address -/

namespace Pton

/-- What has been read. -/
def shown (s : Pton) : List Char :=
  s.done.flatMap (fun n => decimal n ++ ['.']) ++ if s.sawDigit then decimal s.number else []

/-- Every number fits in a byte, and one without digits is zero. -/
structure Inv (s : Pton) : Prop where
  done_le : ∀ n ∈ s.done, n ≤ 255
  number_le : s.number ≤ 255
  fresh : s.sawDigit = false → s.number = 0

/-- A character is read only where it belongs. -/
theorem step_shown {s s' : Pton} {ch : Char} (h : s.Inv) (he : s.step ch = some s') :
    s'.Inv ∧ s'.shown = s.shown ++ [ch] := by
  unfold step at he
  split at he
  · rename_i hdigit
    obtain ⟨hlt, hch⟩ := digit_of_isDigit hdigit
    generalize ch.toNat - '0'.toNat = d at he hlt hch
    dsimp only at he
    split at he
    · exact absurd he (by simp)
    · rename_i hlead
      split at he
      · exact absurd he (by simp)
      · rename_i hle
        obtain rfl := Option.some.inj he
        refine ⟨⟨h.done_le, Nat.le_of_not_lt hle, fun hno => absurd hno (by simp)⟩, ?_⟩
        unfold shown
        rw [if_pos rfl]
        by_cases hsaw : s.sawDigit = true
        · have hne : s.number ≠ 0 := by simpa [hsaw] using hlead
          rw [if_pos hsaw, decimal_snoc hne hlt, ← hch, List.append_assoc]
        · rw [if_neg hsaw, h.fresh (Bool.not_eq_true _ ▸ hsaw), Nat.zero_mul, Nat.zero_add,
            decimal_of_lt hlt, ← hch, List.append_nil]
  · split at he
    · rename_i hdot
      obtain ⟨rfl, hsaw⟩ := hdot
      split at he
      · exact absurd he (by simp)
      · obtain rfl := Option.some.inj he
        refine ⟨⟨?_, Nat.zero_le _, fun _ => rfl⟩, ?_⟩
        · intro n hn
          rcases List.mem_append.mp hn with hn | hn
          · exact h.done_le n hn
          · rw [List.mem_singleton.mp hn]
            exact h.number_le
        · simp [shown, hsaw]
    · exact absurd he (by simp)

theorem foldlM_shown {text : List Char} {s s' : Pton} (h : s.Inv)
    (he : text.foldlM step s = some s') : s'.Inv ∧ s'.shown = s.shown ++ text := by
  induction text generalizing s with
  | nil =>
    obtain rfl := Option.some.inj he
    exact ⟨h, (List.append_nil _).symm⟩
  | cons ch text ih =>
    rw [List.foldlM_cons] at he
    obtain ⟨s₁, hstep, he⟩ := Option.bind_eq_some_iff.mp he
    obtain ⟨h₁, hshown⟩ := step_shown h hstep
    obtain ⟨h', hshown'⟩ := ih h₁ he
    exact ⟨h', by rw [hshown', hshown, List.append_assoc]; rfl⟩

/-- A number is read as it is written. -/
theorem foldlM_decimal (done : List Nat) {n : Nat} (h : n ≤ 255) :
    (decimal n).foldlM step ⟨done, 0, false⟩ = some ⟨done, n, true⟩ := by
  induction n using Nat.strongRecOn with
  | ind n ih =>
    by_cases hlt : n < 10
    · obtain ⟨hdigit, hvalue⟩ := digitChar_digit hlt
      rw [decimal_of_lt hlt, List.foldlM_cons]
      unfold step
      rw [if_pos hdigit]
      simp only [hvalue]
      rw [if_neg (by simp), if_neg (by omega)]
      simp
    · have hmod : n % 10 < 10 := Nat.mod_lt _ (by decide)
      have hsplit : n = n / 10 * 10 + n % 10 := (Nat.div_add_mod' n 10).symm
      have hdiv : n / 10 ≠ 0 := by omega
      obtain ⟨hdigit, hvalue⟩ := digitChar_digit hmod
      have hlast : step ⟨done, n / 10, true⟩ (n % 10).digitChar = some ⟨done, n, true⟩ := by
        unfold step
        rw [if_pos hdigit]
        simp only [hvalue, ← hsplit]
        rw [if_neg (by simpa using hdiv), if_neg (by omega)]
      rw [hsplit, decimal_snoc hdiv hmod, List.foldlM_append, ih (n / 10) (by omega) (by omega),
        ← hsplit]
      simp [hlast]

theorem step_dot {done : List Nat} (n : Nat) (h : done.length < 3) :
    step ⟨done, n, true⟩ '.' = some ⟨done ++ [n], 0, false⟩ := by
  unfold step
  rw [if_neg (by decide), if_pos ⟨rfl, rfl⟩, if_neg (Nat.ne_of_lt h)]

end Pton

theorem foldlM_inetNtop (addr : InAddr) :
    (inetNtop addr).foldlM Pton.step Pton.start =
      some ⟨[addr.a.toNat, addr.b.toNat, addr.c.toNat], addr.d.toNat, true⟩ := by
  have hbyte : ∀ b : UInt8, b.toNat ≤ 255 := fun b => Nat.le_of_lt_succ b.toNat_lt
  unfold inetNtop Pton.start
  simp only [List.foldlM_append, List.foldlM_cons, Pton.foldlM_decimal _ (hbyte _),
    Option.bind_eq_bind, Option.bind_some]
  rw [Pton.step_dot _ (by simp)]
  simp only [Pton.foldlM_decimal _ (hbyte _), Option.bind_some]
  rw [Pton.step_dot _ (by simp)]
  simp only [Pton.foldlM_decimal _ (hbyte _), Option.bind_some]
  rw [Pton.step_dot _ (by simp)]
  simp only [Pton.foldlM_decimal _ (hbyte _), Option.bind_some, List.nil_append, List.cons_append]

/-- **`inet_pton` accepts exactly what `inet_ntop` writes.** -/
theorem inetPton_eq_some {text : List Char} {addr : InAddr} :
    inetPton text = some addr ↔ text = inetNtop addr := by
  constructor
  · intro h
    unfold inetPton at h
    split at h
    · rename_i a b c d hfold
      obtain rfl := Option.some.inj h
      have hstart : Pton.start.Inv := ⟨by simp [Pton.start], Nat.zero_le _, fun _ => rfl⟩
      obtain ⟨hinv, hshown⟩ := Pton.foldlM_shown hstart hfold
      have hbyte : ∀ n, n ≤ 255 → (UInt8.ofNat n).toNat = n := by
        intro n hn
        exact UInt8.toNat_ofNat_of_lt' (by
          change n < 256
          omega)
      have ha := hinv.done_le a (by simp)
      have hb := hinv.done_le b (by simp)
      have hc := hinv.done_le c (by simp)
      unfold inetNtop
      simp only [hbyte a ha, hbyte b hb, hbyte c hc, hbyte d hinv.number_le]
      simpa [Pton.shown, Pton.start] using hshown.symm
    · exact absurd h (by simp)
  · rintro rfl
    unfold inetPton
    rw [foldlM_inetNtop]
    simp

/-! ## What an address says of itself -/

theorem ntohs_htons (port : UInt16) : ntohs (htons port) = port := by
  have hlt := port.toNat_lt
  unfold ntohs htons
  apply UInt16.toNat_inj.mp
  simp only [UInt8.toNat_ofNat', UInt16.toNat_ofNat']
  omega

theorem htons_ntohs (port : UInt8 × UInt8) : htons (ntohs port) = port := by
  obtain ⟨hi, lo⟩ := port
  have hhi := hi.toNat_lt
  have hlo := lo.toNat_lt
  unfold ntohs htons
  refine Prod.ext (UInt8.toNat_inj.mp ?_) (UInt8.toNat_inj.mp ?_)
  · simp only [UInt8.toNat_ofNat', UInt16.toNat_ofNat']
    omega
  · simp only [UInt8.toNat_ofNat', UInt16.toNat_ofNat']
    omega

/-- The text of an address has room in the buffer of `toIp`. -/
theorem length_inetNtop_lt (addr : InAddr) : (inetNtop addr).length < inetAddrStrLen := by
  have hle : ∀ b : UInt8, (decimal b.toNat).length ≤ 3 := fun b =>
    length_decimal_le (Nat.le_of_lt_succ b.toNat_lt)
  have ha := hle addr.a
  have hb := hle addr.b
  have hc := hle addr.c
  have hd := hle addr.d
  unfold inetNtop inetAddrStrLen
  simp only [List.length_append, List.length_cons]
  omega

theorem mem_inetNtop {addr : InAddr} {ch : Char} (h : ch ∈ inetNtop addr) :
    ch.isDigit = true ∨ ch = '.' := by
  by_contra hno
  have hdigit : ch.isDigit = false := by
    simpa using (not_or.mp hno).1
  have hdot := (not_or.mp hno).2
  unfold inetNtop at h
  simp [not_mem_decimal hdigit, hdot] at h

namespace InetAddress

theorem toIp_eq (x : InetAddress) : x.toIp = String.ofList (inetNtop x.addr.sinAddr) :=
  if_pos (length_inetNtop_lt _)

/-- The text has no end of string in it. -/
theorem cStr_toIp (x : InetAddress) : cStr x.toIp = inetNtop x.addr.sinAddr := by
  unfold cStr
  rw [toIp_eq, String.toList_ofList, List.takeWhile_eq_self_iff]
  intro ch hch
  rcases mem_inetNtop hch with hdigit | rfl
  · refine decide_eq_true ?_
    rintro rfl
    exact absurd hdigit (by decide)
  · decide

/-- **What an address built from a text says.** The port is the one given. A text in the form of
`inet_ntop` is what `toIp` says, and any other makes the address `0.0.0.0`. -/
theorem construct_accepts (ip : String) (port : UInt16) :
    (construct ip port).toPort = port ∧
      ((∃ addr, cStr ip = inetNtop addr) → (construct ip port).toIp.toList = cStr ip) ∧
      ((∀ addr, cStr ip ≠ inetNtop addr) → (construct ip port).toIp = "0.0.0.0") := by
  refine ⟨ntohs_htons port, ?_, ?_⟩
  · rintro ⟨addr, htext⟩
    rw [toIp_eq, String.toList_ofList, htext]
    change inetNtop ((inetPton (cStr ip)).getD _) = _
    rw [inetPton_eq_some.mpr htext]
    rfl
  · intro hno
    have hnone : inetPton (cStr ip) = none := by
      rw [Option.eq_none_iff_forall_not_mem]
      intro addr haddr
      exact hno addr (inetPton_eq_some.mp haddr)
    rw [toIp_eq]
    change String.ofList (inetNtop ((inetPton (cStr ip)).getD _)) = _
    rw [hnone]
    rfl

/-- **An address of the kernel is rebuilt from its text and its port.** -/
theorem construct_toIp_toPort (x : InetAddress) (h : x.addr.sinFamily = afInet) :
    construct x.toIp x.toPort = x := by
  obtain ⟨⟨family, port, addr⟩⟩ := x
  obtain rfl : family = afInet := h
  unfold construct
  rw [cStr_toIp, inetPton_eq_some.mpr rfl]
  exact congrArg (fun p => InetAddress.mk ⟨afInet, p, addr⟩) (htons_ntohs port)

theorem construct_toIp_toPort_loopback :
    construct (InetAddress.toIp ⟨⟨afInet, (0x1f, 0x90), ⟨127, 0, 0, 1⟩⟩⟩)
      (InetAddress.toPort ⟨⟨afInet, (0x1f, 0x90), ⟨127, 0, 0, 1⟩⟩⟩) =
        ⟨⟨afInet, (0x1f, 0x90), ⟨127, 0, 0, 1⟩⟩⟩ :=
  construct_toIp_toPort _ rfl

/-- **`toIpPort` tells addresses apart.** -/
theorem toIpPort_inj (x y : InetAddress) :
    x.toIpPort = y.toIpPort ↔
      x.addr.sinAddr = y.addr.sinAddr ∧ x.addr.sinPort = y.addr.sinPort := by
  have htext : ∀ x : InetAddress, x.toIpPort.toList =
      inetNtop x.addr.sinAddr ++ ':' :: decimal x.toPort.toNat := by
    intro x
    simp [toIpPort, toIp_eq, decimal]
  constructor
  · intro h
    have hlist := congrArg String.toList h
    rw [htext, htext] at hlist
    have hip : ∀ addr, ':' ∉ inetNtop addr := by
      intro addr hmem
      rcases mem_inetNtop hmem with hdigit | hdot
      · exact absurd hdigit (by decide)
      · exact absurd hdot (by decide)
    obtain ⟨haddr, -, hport⟩ := (List.append_cons_inj_of_notMem (hip _)
      (not_mem_decimal (by decide))).mp hlist
    refine ⟨?_, ?_⟩
    · have hread := inetPton_eq_some.mpr haddr
      rw [inetPton_eq_some.mpr rfl] at hread
      exact Option.some.inj hread
    · have hntohs := UInt16.toNat_inj.mp (decimal_injective hport)
      rw [← htons_ntohs x.addr.sinPort, ← htons_ntohs y.addr.sinPort]
      exact congrArg htons hntohs
  · rintro ⟨haddr, hport⟩
    unfold toIpPort toIp toPort
    rw [haddr, hport]

end InetAddress

end HyperMuduo.Net
