import UdpPeer.App.ArgParser
import UdpPeer.Packet.Wire

/-!
# The socket's addresses

`main` hands `UdpNode::initialize` the addresses and ports `parseAddrPort` returned. The parser
turns the dotted quad into a host-order integer with `ntohl`; `initialize` turns it back with
`htonl` into the `sin_addr` of the `sockaddr_in` it passes to `bind` (for `--src`) and to
`connect` (for `--dst`), and stores the port with `htons`. The host is little-endian.

The main result is `parseAddrPort_sockaddrIn`: for every token the parser accepts, the
`sockaddr_in` holds, in memory order, the four bytes `inet_pton` read from the token and the port
`stoul` read, truncated to 16 bits, most significant byte first.
-/

namespace UdpPeer.Socket

open UdpPeer.App UdpPeer.Packet

/-! ## The address bytes -/

def afInet : UInt16 := 2

def htonl (x : UInt32) : List UInt8 :=
  [UInt8.ofNat (x.toNat / 16777216), UInt8.ofNat (x.toNat / 65536), UInt8.ofNat (x.toNat / 256),
    UInt8.ofNat x.toNat]

def htons (x : UInt16) : List UInt8 := [UInt8.ofNat (x.toNat / 256), UInt8.ofNat x.toNat]

/-- The 16 bytes of the zeroed `struct sockaddr_in` that `initialize` fills: `sin_family` in host
order, `sin_port`, `sin_addr` and `sin_zero`. -/
def sockaddrIn (addr : UInt32) (port : UInt16) : List UInt8 :=
  le16 afInet ++ htons port ++ htonl addr ++ List.replicate 8 0

/-! ## `initialize` -/

inductive UdpNodeError
  | none
  | socketCreateFail
  | bindFail
  | connectFail
  | sendFail
  | recvFail
  deriving DecidableEq, Repr

structure UdpNode where
  sockfd : Int
  error : UdpNodeError
  deriving DecidableEq, Repr

inductive Syscall
  | socket
  | setsockopt
  | bind (addr : List UInt8)
  | connect (addr : List UInt8)
  deriving DecidableEq, Repr

/-- What the kernel answers `initialize`: the descriptor `socket` returns, and whether `bind` and
`connect` succeed. -/
structure Answers where
  socket : Int
  bind : Bool
  connect : Bool

/-- `UdpNode::initialize(src_addr, src_port, dst_addr, dst_port)`, whose name Lean keeps for
itself: the node after it, and the calls it made. A socket that fails to bind or connect stays
open until the destructor closes it. -/
def UdpNode.setUp (node : UdpNode) (srcAddr : UInt32) (srcPort : UInt16) (dstAddr : UInt32)
    (dstPort : UInt16) (answers : Answers) : UdpNode × List Syscall :=
  if answers.socket < 0 then ({ node with sockfd := answers.socket, error := .socketCreateFail }, [.socket])
  else
    let bound := [.socket, .setsockopt, .bind (sockaddrIn srcAddr srcPort)]
    if !answers.bind then (⟨answers.socket, .bindFail⟩, bound)
    else
      let connected := bound ++ [.connect (sockaddrIn dstAddr dstPort)]
      if !answers.connect then (⟨answers.socket, .connectFail⟩, connected)
      else (⟨answers.socket, .none⟩, connected)

def PtonState (sawDigit : Bool) (octets : Nat) (tmp : List Nat) : Prop :=
  (if sawDigit then tmp.length = octets ∧ 1 ≤ octets ∧ octets ≤ 4
    else tmp.length = octets + 1 ∧ octets < 4) ∧ ∀ b ∈ tmp, b ≤ 255

theorem inetPton4Loop_octets (src : List Char) {sawDigit : Bool} {octets : Nat} {tmp bytes : List Nat}
    (state : PtonState sawDigit octets tmp) (parsed : inetPton4Loop src sawDigit octets tmp = some bytes) :
    bytes.length = 4 ∧ ∀ b ∈ bytes, b ≤ 255 := by
  induction src generalizing sawDigit octets tmp with
  | nil =>
    simp only [inetPton4Loop] at parsed
    split_ifs at parsed with few
    cases parsed
    obtain ⟨shape, small⟩ := state
    refine ⟨?_, fun b mem => small b (List.mem_reverse.1 mem)⟩
    rw [List.length_reverse]
    cases sawDigit
    · simp only [if_false, Bool.false_eq_true] at shape
      omega
    · simp only [if_true] at shape
      omega
  | cons ch rest ih =>
    obtain ⟨shape, small⟩ := state
    have tail_small : ∀ b ∈ tmp.tail, b ≤ 255 := fun b mem => small b (List.mem_of_mem_tail mem)
    simp only [inetPton4Loop] at parsed
    split_ifs at parsed with digit leading large first full dot last
    · -- the first digit of an octet
      refine ih ⟨?_, ?_⟩ parsed
      · simp only [Bool.not_eq_true'] at first
        subst first
        simp only [if_false, Bool.false_eq_true] at shape
        simp only [if_true, List.length_cons, List.length_tail]
        omega
      · exact List.forall_mem_cons.2 ⟨Nat.le_of_not_lt large, tail_small⟩
    · -- a later digit of an octet
      refine ih ⟨?_, ?_⟩ parsed
      · have saw : sawDigit = true := by simpa using first
        subst saw
        simp only [if_true] at shape ⊢
        simp only [List.length_cons, List.length_tail]
        omega
      · exact List.forall_mem_cons.2 ⟨Nat.le_of_not_lt large, tail_small⟩
    · -- a dot after an octet
      refine ih ⟨?_, ?_⟩ parsed
      · have saw : sawDigit = true := (by simpa using dot : ch = '.' ∧ sawDigit = true).2
        subst saw
        simp only [if_true] at shape
        simp only [if_false, Bool.false_eq_true, List.length_cons]
        omega
      · simpa using small

theorem inetPton4_octets {src : List Char} {bytes : List Nat} (parsed : inetPton4 src = some bytes) :
    bytes.length = 4 ∧ ∀ b ∈ bytes, b ≤ 255 :=
  inetPton4Loop_octets src ⟨by simp, by simp⟩ parsed

/-! ## The round trip -/

theorem uint8_ofNat_eq {m n : Nat} (same : m % 256 = n % 256) : UInt8.ofNat m = UInt8.ofNat n :=
  UInt8.toNat.inj (by rw [toNat_uint8_ofNat, toNat_uint8_ofNat, same])

theorem htonl_ntohl {bytes : List Nat} (four : bytes.length = 4) (octets : ∀ b ∈ bytes, b ≤ 255) :
    htonl (ntohl bytes) = bytes.map UInt8.ofNat := by
  match bytes, four with
  | [a, b, c, d], _ =>
    have ha := octets a (by simp)
    have hb := octets b (by simp)
    have hc := octets c (by simp)
    have hd := octets d (by simp)
    have value : (ntohl [a, b, c, d]).toNat = a * 16777216 + b * 65536 + c * 256 + d := by
      rw [ntohl, toNat_uint32_ofNat]
      simp only [List.foldl_cons, List.foldl_nil]
      omega
    simp only [htonl, value, List.map_cons, List.map_nil, List.cons.injEq, and_true]
    exact ⟨uint8_ofNat_eq (by omega), uint8_ofNat_eq (by omega), uint8_ofNat_eq (by omega),
      uint8_ofNat_eq (by omega)⟩

theorem parseAddrPort_some {token : List Char} {addr : UInt32} {port : UInt16}
    (parsed : parseAddrPort token = .ok (some (addr, port))) :
    ∃ colon bytes value, rfind token ':' = some colon ∧ inetPton4 (token.take colon) = some bytes ∧
      stoul (token.drop (colon + 1)) = .ok value ∧ addr = ntohl bytes ∧ port = UInt16.ofNat value := by
  unfold parseAddrPort at parsed
  split at parsed
  · cases parsed
  · rename_i colon found
    split at parsed
    · cases parsed
    · rename_i bytes pton
      cases read : stoul (token.drop (colon + 1)) with
      | error e =>
        rw [read] at parsed
        cases parsed
      | ok value =>
        rw [read] at parsed
        obtain ⟨rfl, rfl⟩ := Prod.mk.inj (Option.some.inj (Except.ok.inj parsed))
        exact ⟨colon, bytes, value, found, pton, read, rfl, rfl⟩

/-- For every token `parseAddrPort` accepts, the `sockaddr_in` that `initialize` builds from the
address and port it returns holds, in memory order, the four bytes `inet_pton` read from the
token, and the port `stoul` read, truncated to 16 bits and most significant byte first. -/
theorem parseAddrPort_sockaddrIn {token : List Char} {addr : UInt32} {port : UInt16}
    (parsed : parseAddrPort token = .ok (some (addr, port))) :
    ∃ colon bytes value, rfind token ':' = some colon ∧ inetPton4 (token.take colon) = some bytes ∧
      stoul (token.drop (colon + 1)) = .ok value ∧
      sockaddrIn addr port = le16 afInet ++ [UInt8.ofNat (value / 256), UInt8.ofNat value] ++
        bytes.map UInt8.ofNat ++ List.replicate 8 0 := by
  obtain ⟨colon, bytes, value, found, pton, read, rfl, rfl⟩ := parseAddrPort_some parsed
  obtain ⟨four, octets⟩ := inetPton4_octets pton
  refine ⟨colon, bytes, value, found, pton, read, ?_⟩
  have port : htons (UInt16.ofNat value) = [UInt8.ofNat (value / 256), UInt8.ofNat value] := by
    simp only [htons, toNat_uint16_ofNat, List.cons.injEq, and_true]
    exact ⟨uint8_ofNat_eq (by omega), uint8_ofNat_eq (by omega)⟩
  rw [sockaddrIn, port, htonl_ntohl four octets]

/-- The documented `127.0.0.1:5000`. -/
theorem parseAddrPort_sockaddrIn_loopback :
    parseAddrPort "127.0.0.1:5000".toList = .ok (some (0x7f000001, 5000)) ∧
    ∃ colon bytes value, rfind "127.0.0.1:5000".toList ':' = some colon ∧
      inetPton4 ("127.0.0.1:5000".toList.take colon) = some bytes ∧
      stoul ("127.0.0.1:5000".toList.drop (colon + 1)) = .ok value ∧
      sockaddrIn 0x7f000001 5000 = le16 afInet ++ [UInt8.ofNat (value / 256), UInt8.ofNat value] ++
        bytes.map UInt8.ofNat ++ List.replicate 8 0 :=
  ⟨rfl, parseAddrPort_sockaddrIn rfl⟩

end UdpPeer.Socket
