import UdpPeer.App.ArgParser

/-!
# The documented grammar of the option values

The usage text documents each `--src` and `--dst` value as `<addr>:<port>`. The address is an
IPv4 dotted quad, and the port is a decimal numeral for 1..65535. `AddrPort` is a value of that
grammar: its fields carry the bounds, so an ill-formed one cannot be built.

`parseAddrPort_token` is the round trip: the text of every such value parses back to its
address and port. From it and the refinement `parseUdpPeerArgs_eq`, `documented_args_parse`
describes the whole call on argument vectors whose values all follow the grammar. The parser
does not check that grammar, though. The end of the module shows concrete inputs outside it that
it throws on or accepts.
-/

namespace UdpPeer.App

/-! ## Digits -/

theorem isDigit_iff (c : Char) : c.isDigit = true ↔ 48 ≤ c.toNat ∧ c.toNat ≤ 57 := by
  simp [Char.isDigit, Char.toNat, UInt32.le_def, BitVec.le_def, UInt32.toNat]

theorem isSpace_of_isDigit {c : Char} (digit : c.isDigit) : isSpace c = false := by
  have inRange := (isDigit_iff c).1 digit
  have notBlank : c ≠ ' ' := by rintro rfl; simp at inRange
  simp [isSpace, notBlank]
  omega

theorem takeSign_of_isDigit {c : Char} (digit : c.isDigit) (rest : List Char) :
    takeSign (c :: rest) = (false, c :: rest) := by
  unfold takeSign
  split <;> simp_all

theorem le_foldl_pushDigit (digits : List Char) (n : Nat) : n ≤ digits.foldl pushDigit n := by
  induction digits generalizing n with
  | nil => exact le_rfl
  | cons d digits ih => exact (Nat.le_trans (by unfold pushDigit; omega) (ih _))

theorem stoul_numeral (digits : List Char) (nonempty : digits ≠ []) (all : ∀ c ∈ digits, c.isDigit)
    (small : digitsValue digits < 2 ^ 64) : stoul digits = .ok (digitsValue digits) := by
  obtain ⟨d, ds, rfl⟩ := List.exists_cons_of_ne_nil nonempty
  have digit := all d (List.mem_cons_self d ds)
  have whole : (d :: ds).takeWhile Char.isDigit = d :: ds := List.takeWhile_eq_self_iff.2 all
  have skip : (d :: ds).dropWhile isSpace = d :: ds := by
    rw [List.dropWhile_cons, isSpace_of_isDigit digit]; rfl
  unfold stoul
  rw [skip, takeSign_of_isDigit digit]
  simp only [whole, List.isEmpty_cons, Bool.false_eq_true, if_false, if_neg (Nat.not_le.2 small)]

/-! ## Dotted quads -/

/-- A decimal numeral. -/
structure Numeral where
  digits : List Char
  nonempty : digits ≠ []
  allDigits : ∀ c ∈ digits, c.isDigit

/-- An octet of a dotted quad as `inet_pton` reads it: a numeral for 0..255 with no leading
zero. -/
structure Octet extends Numeral where
  noLeadingZero : digits.head? = some '0' → digits = ['0']
  le255 : digitsValue digits ≤ 255

/-- A port as the usage documents it: a numeral for 1..65535. -/
structure Port extends Numeral where
  pos : 1 ≤ digitsValue digits
  le65535 : digitsValue digits ≤ 65535

/-- A value of the documented grammar, `<IPv4 dotted-quad>:<port>`. -/
structure AddrPort where
  a : Octet
  b : Octet
  c : Octet
  d : Octet
  port : Port

namespace AddrPort

def quad (v : AddrPort) : List Char :=
  v.a.digits ++ '.' :: (v.b.digits ++ '.' :: (v.c.digits ++ '.' :: v.d.digits))

def token (v : AddrPort) : List Char := v.quad ++ ':' :: v.port.digits

def address (v : AddrPort) : Nat :=
  digitsValue v.a.digits * 2 ^ 24 + digitsValue v.b.digits * 2 ^ 16 +
    digitsValue v.c.digits * 2 ^ 8 + digitsValue v.d.digits

def portNumber (v : AddrPort) : Nat := digitsValue v.port.digits

theorem address_lt (v : AddrPort) : v.address < 2 ^ 32 := by
  have := v.a.le255; have := v.b.le255; have := v.c.le255; have := v.d.le255
  unfold address; omega

end AddrPort

theorem inetPton4Loop_digits (digits : List Char) (all : ∀ c ∈ digits, c.isDigit) (rest : List Char)
    (octets current : Nat) (acc : List Nat) (pos : 0 < current) (le : digits.foldl pushDigit current ≤ 255) :
    inetPton4Loop (digits ++ rest) true octets (current :: acc) =
      inetPton4Loop rest true octets (digits.foldl pushDigit current :: acc) := by
  induction digits generalizing current with
  | nil => rfl
  | cons d digits ih =>
    have pushed := le_foldl_pushDigit digits (pushDigit current d)
    have grows : current ≤ pushDigit current d := by unfold pushDigit; omega
    rw [List.cons_append, inetPton4Loop]
    simp only [all d (List.mem_cons_self d digits), List.headD_cons, List.tail_cons, if_true,
      Bool.true_and, decide_eq_true_eq, Bool.not_true, Bool.false_eq_true]
    rw [if_neg (by omega), if_neg (by simp only [List.foldl_cons] at le; omega), if_neg (by simp)]
    exact ih (fun c mem => all c (List.mem_cons_of_mem d mem)) _ (by omega) le

theorem inetPton4Loop_octet (o : Octet) (rest : List Char) (octets : Nat) (acc : List Nat) (room : octets < 4) :
    inetPton4Loop (o.digits ++ rest) false octets (0 :: acc) =
      inetPton4Loop rest true (octets + 1) (digitsValue o.digits :: acc) := by
  rcases o with ⟨⟨_ | ⟨d, digits⟩, nonempty, all⟩, noLeadingZero, le255⟩
  · exact absurd rfl nonempty
  have digit := all d (List.mem_cons_self d digits)
  have first := le_foldl_pushDigit digits (pushDigit 0 d)
  simp only [digitsValue, List.foldl_cons] at le255 first ⊢
  rw [List.cons_append, inetPton4Loop]
  simp only [digit, List.headD_cons, List.tail_cons, if_true, Bool.false_and, Bool.false_eq_true,
    if_false, Bool.not_false]
  rw [if_neg (by omega), if_neg (by omega)]
  by_cases zero : d = '0'
  · subst zero
    have single : digits = [] := by simpa using noLeadingZero rfl
    subst single
    rfl
  · have nonzero : 0 < pushDigit 0 d := by
      have := (isDigit_iff d).1 digit
      have : d.toNat ≠ 48 := fun eq => zero (Char.ext (UInt32.toNat.inj eq))
      unfold pushDigit digitValue
      rw [show '0'.toNat = 48 from rfl]
      omega
    exact inetPton4Loop_digits digits (fun c mem => all c (List.mem_cons_of_mem d mem)) rest _ _ acc
      nonzero le255

theorem inetPton4Loop_dot (rest : List Char) (octets : Nat) (tmp : List Nat) (room : octets < 4) :
    inetPton4Loop ('.' :: rest) true octets tmp = inetPton4Loop rest false octets (0 :: tmp) := by
  rw [inetPton4Loop]
  simp [show Char.isDigit '.' = false from rfl, Nat.ne_of_lt room]

theorem inetPton4_quad (v : AddrPort) :
    inetPton4 v.quad = some [digitsValue v.a.digits, digitsValue v.b.digits, digitsValue v.c.digits,
      digitsValue v.d.digits] := by
  have last := inetPton4Loop_octet v.d [] 3
    [digitsValue v.c.digits, digitsValue v.b.digits, digitsValue v.a.digits] (by omega)
  rw [List.append_nil] at last
  rw [inetPton4, AddrPort.quad, inetPton4Loop_octet _ _ _ _ (by omega),
    inetPton4Loop_dot _ _ _ (by omega), inetPton4Loop_octet _ _ _ _ (by omega),
    inetPton4Loop_dot _ _ _ (by omega), inetPton4Loop_octet _ _ _ _ (by omega),
    inetPton4Loop_dot _ _ _ (by omega), last]
  rfl

theorem ntohl_quad (v : AddrPort) :
    ntohl [digitsValue v.a.digits, digitsValue v.b.digits, digitsValue v.c.digits, digitsValue v.d.digits] =
      UInt32.ofNat v.address := by
  have value : [digitsValue v.a.digits, digitsValue v.b.digits, digitsValue v.c.digits,
      digitsValue v.d.digits].foldl (fun acc b => acc * 256 + b) 0 = v.address := by
    simp only [List.foldl_cons, List.foldl_nil, AddrPort.address]
    omega
  rw [ntohl, value]

/-! ## The value round trip -/

theorem rfind_eq_none {str : List Char} {c : Char} (absent : c ∉ str) : rfind str c = none := by
  induction str with
  | nil => rfl
  | cons d str ih =>
    rw [rfind, ih (fun mem => absent (List.mem_cons_of_mem d mem)),
      if_neg (fun (same : d = c) => absent (same ▸ List.mem_cons_self d str))]

theorem rfind_append_cons (pre post : List Char) {c : Char} (absent : c ∉ post) :
    rfind (pre ++ c :: post) c = some pre.length := by
  induction pre with
  | nil => rw [List.nil_append, rfind, rfind_eq_none absent, if_pos rfl, List.length_nil]
  | cons d pre ih => rw [List.cons_append, rfind, ih, List.length_cons]

theorem parseAddrPort_token (v : AddrPort) :
    parseAddrPort v.token = .ok (some (UInt32.ofNat v.address, UInt16.ofNat v.portNumber)) := by
  have noColon : ':' ∉ v.port.digits := fun mem => by simpa using v.port.allDigits ':' mem
  have small : digitsValue v.port.digits < 2 ^ 64 := by have := v.port.le65535; omega
  have rest : (v.quad ++ ':' :: v.port.digits).drop (v.quad.length + 1) = v.port.digits := by
    rw [← List.singleton_append, ← List.append_assoc]
    exact List.drop_left' (by simp)
  rw [parseAddrPort, AddrPort.token, rfind_append_cons _ _ noColon]
  simp only [List.take_left' rfl, inetPton4_quad, rest,
    stoul_numeral _ v.port.nonempty v.port.allDigits small, ntohl_quad]
  rfl

/-! ## Argument vectors of the documented grammar -/

private theorem parseValues_parsed (taken : List (Endpoint × String)) (value : Endpoint × String → UInt32 × UInt16)
    (parsed : ∀ o ∈ taken, parseAddrPort o.2.toList = .ok (some (value o))) :
    parseValues taken = .ok (taken.map fun o => (o.1, some (value o))) := by
  induction taken with
  | nil => rfl
  | cons o taken ih =>
    rw [parseValues, parsed o (List.mem_cons_self o taken),
      ih (fun o' mem => parsed o' (List.mem_cons_of_mem o mem))]
    rfl

private theorem lastParsed_last (value : Endpoint × String → UInt32 × UInt16) (pre post : List (Endpoint × String))
    (e : Endpoint) (t : String) (later : ∀ o ∈ post, o.1 ≠ e) :
    lastParsed e ((pre ++ (e, t) :: post).map fun o => (o.1, some (value o))) = some (value (e, t)) := by
  have none_later : (post.map fun o => (o.1, some (value o))).filterMap
      (fun o : Outcome => if o.1 = e then o.2 else none) = [] :=
    List.filterMap_eq_nil_iff.2 fun o mem => by
      obtain ⟨o', mem', rfl⟩ := List.mem_map.1 mem
      simp [later o' mem']
  rw [lastParsed, List.map_append, List.map_cons, List.filterMap_append, List.filterMap_cons]
  simp only [if_true, none_later, List.getLast?_concat]

/-- On argument vectors whose values all follow the documented grammar, `parseUdpPeerArgs`
returns normally. It returns `true` exactly when both options have a value, and each option's
fields then hold the address and port of its last value. -/
theorem documented_args_parse (argv : List String) (args : UdpPeerArgs)
    (documented : ∀ o ∈ takenOptions argv.tail, ∃ v : AddrPort, o.2.toList = v.token) :
    ∃ ok args', parseUdpPeerArgs argv args = .ok (ok, args') ∧
      (ok = true ↔ (∃ t, (Endpoint.src, t) ∈ takenOptions argv.tail) ∧
        ∃ t, (Endpoint.dst, t) ∈ takenOptions argv.tail) ∧
      ∀ pre e t post, takenOptions argv.tail = pre ++ (e, t) :: post → (∀ o ∈ post, o.1 ≠ e) →
        ∀ v : AddrPort, t.toList = v.token →
          (e.fields args').1.toNat = v.address ∧ (e.fields args').2.toNat = v.portNumber := by
  let value (o : Endpoint × String) : UInt32 × UInt16 :=
    ((parseAddrPort o.2.toList).toOption.join).getD (0, 0)
  have value_token (o : Endpoint × String) (v : AddrPort) (text : o.2.toList = v.token) :
      value o = (UInt32.ofNat v.address, UInt16.ofNat v.portNumber) := by
    simp only [value, text, parseAddrPort_token]
    rfl
  have parsed (o) (mem : o ∈ takenOptions argv.tail) :
      parseAddrPort o.2.toList = .ok (some (value o)) := by
    obtain ⟨v, text⟩ := documented o mem
    rw [value_token o v text, text, parseAddrPort_token]
  refine ⟨_, _, by rw [parseUdpPeerArgs_eq, parseValues_parsed _ value parsed]; rfl, ?_, ?_⟩
  · rw [verdict_of_parsed _ fun o mem => by obtain ⟨_, _, rfl⟩ := List.mem_map.1 mem; rfl, List.map_map]
    simp [List.mem_map]
  · intro pre e t post split later v text
    rw [fields_lastArgs, split, lastParsed_last value pre post e t later, Option.getD_some,
      value_token (e, t) v text]
    have := v.port.le65535
    exact ⟨UInt32.toNat_ofNat_of_lt v.address_lt, UInt16.toNat_ofNat_of_lt (by unfold AddrPort.portNumber UInt16.size; omega)⟩

/-- The parser does not check the documented grammar. On argument vectors that follow it, the
call behaves as documented (`documented_args_parse`). Outside the grammar:
- a port with no digits makes `std::stoul` throw out of the call;
- ports 65536 and 0 are accepted, and 65536 is cast to 0;
- blanks, a sign and trailing junk around the port are accepted, and `-65535` gives port 1. -/
theorem args_grammar_unchecked :
    (∀ (argv : List String) (args : UdpPeerArgs),
      (∀ o ∈ takenOptions argv.tail, ∃ v : AddrPort, o.2.toList = v.token) →
      ∃ ok args', parseUdpPeerArgs argv args = .ok (ok, args') ∧
        (ok = true ↔ (∃ t, (Endpoint.src, t) ∈ takenOptions argv.tail) ∧
          ∃ t, (Endpoint.dst, t) ∈ takenOptions argv.tail) ∧
        ∀ pre e t post, takenOptions argv.tail = pre ++ (e, t) :: post → (∀ o ∈ post, o.1 ≠ e) →
          ∀ v : AddrPort, t.toList = v.token →
            (e.fields args').1.toNat = v.address ∧ (e.fields args').2.toNat = v.portNumber) ∧
    parseUdpPeerArgs ["udp_peer", "--src", "127.0.0.1:", "--dst", "127.0.0.1:5000"] ⟨0, 0, 0, 0⟩ =
      .error .invalidArgument ∧
    parseUdpPeerArgs ["udp_peer", "--src", "127.0.0.1:65536", "--dst", "127.0.0.1:0"] ⟨0, 0, 0, 0⟩ =
      .ok (true, ⟨0x7F000001, 0, 0x7F000001, 0⟩) ∧
    parseUdpPeerArgs ["udp_peer", "--src", "127.0.0.1: +5000x", "--dst", "127.0.0.1:-65535"] ⟨0, 0, 0, 0⟩ =
      .ok (true, ⟨0x7F000001, 5000, 0x7F000001, 1⟩) :=
  ⟨documented_args_parse, rfl, rfl, rfl⟩

end UdpPeer.App
