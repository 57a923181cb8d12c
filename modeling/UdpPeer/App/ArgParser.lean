import Mathlib

/-!
# The argument parser

`parseUdpPeerArgs` scans `argv` for `--src` and `--dst`, each followed by a value, and parses
every value with `parseAddrPort`. That function reads the address before the last `:` with
`inet_pton(AF_INET, ...)` and the port after it with `std::stoul`, cast to `uint16_t`. Flags
record which options parsed and which did not. The call returns `true` when both parsed and
none failed.

`std::stoul` throws when the port has no digits or is past `ULONG_MAX`. Nothing catches that
exception, so the whole call can throw.

The loop is refined by a two-phase model (`parseLoop_eq`). First it takes the option values
(`takenOptions`) and parses each one, stopping at the first exception (`parseValues`). Then
the verdict and the fields follow from what each value parsed to (`verdict`, `lastArgs`).

Strings stand for the C strings of `argv`, which have no NUL.
-/

namespace UdpPeer.App

inductive StdException
  | invalidArgument
  | outOfRange
  deriving DecidableEq, Repr

def isSpace (c : Char) : Bool := c = ' ' || (9 ≤ c.toNat && c.toNat ≤ 13)

def digitValue (c : Char) : Nat := c.toNat - '0'.toNat

def pushDigit (n : Nat) (c : Char) : Nat := n * 10 + digitValue c

def digitsValue (digits : List Char) : Nat := digits.foldl pushDigit 0

def takeSign : List Char → Bool × List Char
  | '-' :: rest => (true, rest)
  | '+' :: rest => (false, rest)
  | str => (false, str)

/-- `std::stoul(str)` for a 64-bit `unsigned long`. `strtoul(str, &end, 10)` skips blanks,
reads a sign and the digits after it, and negates modulo 2^64 after a `-`. `stoul` throws
`std::invalid_argument` when no digit was read and `std::out_of_range` on `ERANGE`. -/
def stoul (str : List Char) : Except StdException Nat :=
  let (negative, str) := takeSign (str.dropWhile isSpace)
  let digits := str.takeWhile Char.isDigit
  if digits.isEmpty then .error .invalidArgument
  else if 2 ^ 64 ≤ digitsValue digits then .error .outOfRange
  else .ok (if negative then (2 ^ 64 - digitsValue digits) % 2 ^ 64 else digitsValue digits)

/-- The loop of glibc's `inet_pton4`. Its state is `saw_digit`, `octets`, and the octets read
so far, the current one (`*tp`) first. -/
def inetPton4Loop : List Char → Bool → Nat → List Nat → Option (List Nat)
  | [], _, octets, tmp => if octets < 4 then none else some tmp.reverse
  | ch :: rest, sawDigit, octets, tmp =>
    if ch.isDigit then
      let new := pushDigit (tmp.headD 0) ch
      if sawDigit && tmp.headD 0 = 0 then none
      else if new > 255 then none
      else if !sawDigit then
        if octets + 1 > 4 then none else inetPton4Loop rest true (octets + 1) (new :: tmp.tail)
      else inetPton4Loop rest true octets (new :: tmp.tail)
    else if ch = '.' && sawDigit then
      if octets = 4 then none else inetPton4Loop rest false octets (0 :: tmp)
    else none

def inetPton4 (src : List Char) : Option (List Nat) := inetPton4Loop src false 0 [0]

def ntohl (bytes : List Nat) : UInt32 :=
  UInt32.ofNat (bytes.foldl (fun acc b => acc * 256 + b) 0)

def rfind (str : List Char) (c : Char) : Option Nat :=
  match str with
  | [] => none
  | d :: rest =>
    match rfind rest c with
    | some i => some (i + 1)
    | none => if d = c then some 0 else none

/-- `parseAddrPort(token, addr, port)`. It gives the address and port it writes when it returns
`true`, and `none` when it returns `false`. -/
def parseAddrPort (token : List Char) : Except StdException (Option (UInt32 × UInt16)) :=
  match rfind token ':' with
  | none => .ok none
  | some colon =>
    match inetPton4 (token.take colon) with
    | none => .ok none
    | some bytes =>
      (stoul (token.drop (colon + 1))).map fun port => some (ntohl bytes, UInt16.ofNat port)

structure UdpPeerArgs where
  srcAddr : UInt32
  srcPort : UInt16
  dstAddr : UInt32
  dstPort : UInt16
  deriving DecidableEq, Repr

def parseFlagHasSrc : UInt8 := 0x01
def parseFlagHasDst : UInt8 := 0x02
def parseFlagErrSrcFmt : UInt8 := 0x04
def parseFlagErrDstFmt : UInt8 := 0x08
def parseFlagRequiredMask : UInt8 := 0x03
def parseFlagErrorMask : UInt8 := 0x0C

inductive Endpoint
  | src
  | dst
  deriving DecidableEq, Repr

namespace Endpoint

def hasFlag : Endpoint → UInt8
  | src => parseFlagHasSrc
  | dst => parseFlagHasDst

def errFlag : Endpoint → UInt8
  | src => parseFlagErrSrcFmt
  | dst => parseFlagErrDstFmt

def store : Endpoint → UdpPeerArgs → UInt32 × UInt16 → UdpPeerArgs
  | src, args, parsed => { args with srcAddr := parsed.1, srcPort := parsed.2 }
  | dst, args, parsed => { args with dstAddr := parsed.1, dstPort := parsed.2 }

def fields : Endpoint → UdpPeerArgs → UInt32 × UInt16
  | src, args => (args.srcAddr, args.srcPort)
  | dst, args => (args.dstAddr, args.dstPort)

@[simp] theorem fields_store (e : Endpoint) (args : UdpPeerArgs) (parsed : UInt32 × UInt16) :
    e.fields (e.store args parsed) = parsed := by
  cases e <;> rfl

@[simp] theorem fields_store_of_ne {e e' : Endpoint} (other : e ≠ e') (args : UdpPeerArgs)
    (parsed : UInt32 × UInt16) : e'.fields (e.store args parsed) = e'.fields args := by
  cases e <;> cases e' <;> first | rfl | exact absurd rfl other

end Endpoint

theorem UdpPeerArgs.ext_fields {args args' : UdpPeerArgs} (agree : ∀ e : Endpoint, e.fields args = e.fields args') :
    args = args' := by
  have src := agree .src
  have dst := agree .dst
  simp only [Endpoint.fields, Prod.mk.injEq] at src dst
  cases args
  cases args'
  simp_all

/-- The branch of the loop for an option and its value. `parseAddrPort` writes into the
option's fields of `args`; the branch then sets the option's flag, or its error flag when the
value is malformed. -/
def parseOption (e : Endpoint) (token : String) (flags : UInt8) (args : UdpPeerArgs) :
    Except StdException (UInt8 × UdpPeerArgs) :=
  (parseAddrPort token.toList).map fun
    | some parsed => (flags ||| e.hasFlag, e.store args parsed)
    | none => (flags ||| e.errFlag, args)

/-- The loop of `parseUdpPeerArgs` over `argv[idx..]`. An option is taken only when an argument
follows it, and it consumes that argument. -/
def parseLoop : List String → UInt8 → UdpPeerArgs → Except StdException (UInt8 × UdpPeerArgs)
  | arg :: token :: rest, flags, args =>
    if arg = "--src" then
      (parseOption .src token flags args).bind fun (flags, args) => parseLoop rest flags args
    else if arg = "--dst" then
      (parseOption .dst token flags args).bind fun (flags, args) => parseLoop rest flags args
    else parseLoop (token :: rest) flags args
  | _, flags, args => .ok (flags, args)

/-- `parseUdpPeerArgs(argc, argv, args)`. It gives the result and what `args` holds afterwards,
or the exception that escapes. -/
def parseUdpPeerArgs (argv : List String) (args : UdpPeerArgs) :
    Except StdException (Bool × UdpPeerArgs) :=
  (parseLoop argv.tail 0 args).map fun (flags, args) =>
    (flags &&& parseFlagRequiredMask == parseFlagRequiredMask && flags &&& parseFlagErrorMask == 0,
      args)

example : stoul " +8080x".toList = .ok 8080 := rfl

example : inetPton4 "127.0.0.01".toList = none := rfl

/-! ## The flags as four bits -/

def flagsOf (hasSrc hasDst errSrc errDst : Bool) : UInt8 :=
  (if hasSrc then parseFlagHasSrc else 0) ||| (if hasDst then parseFlagHasDst else 0) |||
    (if errSrc then parseFlagErrSrcFmt else 0) ||| (if errDst then parseFlagErrDstFmt else 0)

theorem flagsOf_or_hasFlag (e : Endpoint) (hasSrc hasDst errSrc errDst : Bool) :
    flagsOf hasSrc hasDst errSrc errDst ||| e.hasFlag =
      flagsOf (hasSrc || e == .src) (hasDst || e == .dst) errSrc errDst := by
  revert hasSrc hasDst errSrc errDst
  cases e <;> decide

theorem flagsOf_or_errFlag (e : Endpoint) (hasSrc hasDst errSrc errDst : Bool) :
    flagsOf hasSrc hasDst errSrc errDst ||| e.errFlag =
      flagsOf hasSrc hasDst (errSrc || e == .src) (errDst || e == .dst) := by
  revert hasSrc hasDst errSrc errDst
  cases e <;> decide

theorem flagsOf_result (hasSrc hasDst errSrc errDst : Bool) :
    (flagsOf hasSrc hasDst errSrc errDst &&& parseFlagRequiredMask == parseFlagRequiredMask &&
        flagsOf hasSrc hasDst errSrc errDst &&& parseFlagErrorMask == 0) =
      (hasSrc && hasDst && !errSrc && !errDst) := by
  revert hasSrc hasDst errSrc errDst
  decide

/-! ## The two-phase model -/

def takenOptions : List String → List (Endpoint × String)
  | arg :: token :: rest =>
    if arg = "--src" then (.src, token) :: takenOptions rest
    else if arg = "--dst" then (.dst, token) :: takenOptions rest
    else takenOptions (token :: rest)
  | _ => []

abbrev Outcome := Endpoint × Option (UInt32 × UInt16)

/-- `parseAddrPort` of each value taken, in order, or the first exception. -/
def parseValues : List (Endpoint × String) → Except StdException (List Outcome)
  | [] => .ok []
  | (e, token) :: taken =>
    (parseAddrPort token.toList).bind fun parsed => (parseValues taken).map ((e, parsed) :: ·)

def parsedFor (e : Endpoint) (outcomes : List Outcome) : Bool :=
  outcomes.any fun o => o.1 == e && o.2.isSome

def failedFor (e : Endpoint) (outcomes : List Outcome) : Bool :=
  outcomes.any fun o => o.1 == e && o.2.isNone

def verdict (outcomes : List Outcome) : Bool :=
  parsedFor .src outcomes && parsedFor .dst outcomes && !failedFor .src outcomes &&
    !failedFor .dst outcomes

theorem verdict_of_parsed (outcomes : List Outcome) (all : ∀ o ∈ outcomes, o.2.isSome) :
    verdict outcomes = true ↔ Endpoint.src ∈ outcomes.map Prod.fst ∧ Endpoint.dst ∈ outcomes.map Prod.fst := by
  have failed (e : Endpoint) : failedFor e outcomes = false :=
    List.any_eq_false.2 fun o mem => by simp [Option.isSome_iff_ne_none.1 (all o mem)]
  have parsed (e : Endpoint) : parsedFor e outcomes = true ↔ e ∈ outcomes.map Prod.fst := by
    simp only [parsedFor, List.any_eq_true, Bool.and_eq_true, beq_iff_eq, List.mem_map]
    exact ⟨fun ⟨o, mem, kind, _⟩ => ⟨o, mem, kind⟩, fun ⟨o, mem, kind⟩ => ⟨o, mem, kind, all o mem⟩⟩
  simp only [verdict, failed, Bool.not_false, Bool.and_true, Bool.and_eq_true, parsed]

def lastParsed (e : Endpoint) (outcomes : List Outcome) : Option (UInt32 × UInt16) :=
  (outcomes.filterMap fun o => if o.1 = e then o.2 else none).getLast?

def lastArgs (args : UdpPeerArgs) (outcomes : List Outcome) : UdpPeerArgs :=
  let storeLast (e : Endpoint) (args : UdpPeerArgs) :=
    ((lastParsed e outcomes).map (e.store args)).getD args
  storeLast .dst (storeLast .src args)

theorem lastParsed_cons (e e' : Endpoint) (parsed : Option (UInt32 × UInt16)) (outcomes : List Outcome) :
    lastParsed e' ((e, parsed) :: outcomes) =
      (lastParsed e' outcomes).or (if e = e' then parsed else none) := by
  unfold lastParsed
  rw [List.filterMap_cons]
  split <;> rename_i found
  · rw [found, Option.or_none]
  · rw [found, List.getLast?_cons]
    cases (List.filterMap _ outcomes).getLast? <;> rfl

theorem fields_lastArgs (e : Endpoint) (args : UdpPeerArgs) (outcomes : List Outcome) :
    e.fields (lastArgs args outcomes) = (lastParsed e outcomes).getD (e.fields args) := by
  simp only [lastArgs]
  cases e <;> cases lastParsed .src outcomes <;> cases lastParsed .dst outcomes <;> rfl

theorem lastArgs_cons (e : Endpoint) (parsed : Option (UInt32 × UInt16)) (args : UdpPeerArgs)
    (outcomes : List Outcome) :
    lastArgs args ((e, parsed) :: outcomes) = lastArgs ((parsed.map (e.store args)).getD args) outcomes := by
  refine UdpPeerArgs.ext_fields fun e' => ?_
  rw [fields_lastArgs, fields_lastArgs, lastParsed_cons]
  cases lastParsed e' outcomes with
  | some _ => rfl
  | none =>
    cases parsed with
    | none => simp
    | some parsed =>
      by_cases self : e = e'
      · subst self; simp
      · simp [self, Endpoint.fields_store_of_ne self]

theorem parseOption_flagsOf (e : Endpoint) (token : String) (hasSrc hasDst errSrc errDst : Bool)
    (args : UdpPeerArgs) :
    parseOption e token (flagsOf hasSrc hasDst errSrc errDst) args =
      (parseAddrPort token.toList).map fun parsed =>
        (flagsOf (hasSrc || parsedFor .src [(e, parsed)]) (hasDst || parsedFor .dst [(e, parsed)])
          (errSrc || failedFor .src [(e, parsed)]) (errDst || failedFor .dst [(e, parsed)]),
          (parsed.map (e.store args)).getD args) := by
  unfold parseOption
  congr 1
  funext parsed
  cases parsed <;> simp [flagsOf_or_hasFlag, flagsOf_or_errFlag, parsedFor, failedFor]

theorem parseLoop_eq : ∀ (argv : List String) (hasSrc hasDst errSrc errDst : Bool) (args : UdpPeerArgs),
    parseLoop argv (flagsOf hasSrc hasDst errSrc errDst) args =
      (parseValues (takenOptions argv)).map fun outcomes =>
        (flagsOf (hasSrc || parsedFor .src outcomes) (hasDst || parsedFor .dst outcomes)
          (errSrc || failedFor .src outcomes) (errDst || failedFor .dst outcomes),
          lastArgs args outcomes)
  | arg :: token :: rest, hasSrc, hasDst, errSrc, errDst, args => by
    have taken (e : Endpoint) : ((parseOption e token (flagsOf hasSrc hasDst errSrc errDst) args).bind
        fun (flags, args) => parseLoop rest flags args) =
        (parseValues ((e, token) :: takenOptions rest)).map fun outcomes =>
          (flagsOf (hasSrc || parsedFor .src outcomes) (hasDst || parsedFor .dst outcomes)
            (errSrc || failedFor .src outcomes) (errDst || failedFor .dst outcomes),
            lastArgs args outcomes) := by
      rw [parseOption_flagsOf, parseValues]
      cases parseAddrPort token.toList with
      | error _ => rfl
      | ok parsed =>
        show parseLoop rest _ _ = _
        rw [parseLoop_eq rest]
        cases parseValues (takenOptions rest) with
        | error _ => rfl
        | ok outcomes =>
          simp only [Except.map, Except.bind, parsedFor, failedFor, List.any_cons, List.any_nil,
            Bool.or_false, Bool.or_assoc, lastArgs_cons]
    unfold parseLoop takenOptions
    split_ifs
    · exact taken .src
    · exact taken .dst
    · exact parseLoop_eq (token :: rest) hasSrc hasDst errSrc errDst args
  | [], _, _, _, _, _ | [_], _, _, _, _, _ => by
    simp [parseLoop, takenOptions, parseValues, Except.map, parsedFor, failedFor, lastArgs, lastParsed]

/-- `parseUdpPeerArgs` is the two-phase model: the first exception of the values taken escapes;
otherwise the result is the verdict on the outcomes, and each option's fields hold its last value
that parsed. -/
theorem parseUdpPeerArgs_eq (argv : List String) (args : UdpPeerArgs) :
    parseUdpPeerArgs argv args =
      (parseValues (takenOptions argv.tail)).map fun outcomes => (verdict outcomes, lastArgs args outcomes) := by
  have start : parseLoop argv.tail 0 args = parseLoop argv.tail (flagsOf false false false false) args := rfl
  rw [parseUdpPeerArgs, start, parseLoop_eq]
  cases parseValues (takenOptions argv.tail) with
  | error _ => rfl
  | ok outcomes => simp only [Except.map, Bool.false_or, flagsOf_result, verdict]

end UdpPeer.App
