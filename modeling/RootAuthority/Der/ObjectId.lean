import RootAuthority.Der.Element

/-!
# Object identifiers

An object identifier is a path of numbers, its arcs. The first octet holds the first two arcs, every
further arc is written seven bits an octet, with the high bit set on all but its last octet.

Identifiers are compared by their octets. `ObjectId.display` shows the arcs of any octets in
certificates, also of ones that end in the middle of an arc; `ObjectId.dotted?` accepts only the
octets that keys may use and shows them with dots.
-/

namespace RootAuthority.Der

/-- The contents of an object identifier. -/
abbrev ObjectId := Octets

namespace ObjectId

/-! ## 1. Writing -/

/-- An arc, most significant group first, put in front of `tail`; `fuel` bounds the groups. -/
def pushArc : (fuel n : Nat) → (more : Bool) → Octets → Octets
  | 0, _, _, tail => tail
  | fuel + 1, n, more, tail =>
    let b := UInt8.ofNat (n % 128 + (if more then 128 else 0))
    if n < 128 then b :: tail else pushArc fuel (n / 128) true (b :: tail)

/-- **The identifier with the given arcs**, of which there are at least two. -/
def ofArcs : List Nat → ObjectId
  | a :: b :: rest =>
    UInt8.ofNat (a * 40 + b) :: rest.flatMap fun n => pushArc (n + 1) n false []
  | _ => []

/-! ## 2. Names in certificates -/

/-- The arcs after the first two, each up to 64 bits; the octets of an unfinished last arc count as
    one. -/
def laterArcs : (acc : Nat) → (open_ : Bool) → Octets → List Nat
  | acc, open_, [] => if open_ then [acc] else []
  | acc, _, b :: bs =>
    let n := (acc * 128 + b.toNat % 128) % 0x1_0000_0000_0000_0000
    if b < 128 then n :: laterArcs 0 false bs else laterArcs n true bs

/-- How many octets the longest finished arc after the first two has. -/
def longestArc : (current longest : Nat) → Octets → Nat
  | _, longest, [] => longest
  | current, longest, b :: bs =>
    if b < 128 then longestArc 0 (max longest (current + 1)) bs
    else longestArc (current + 1) longest bs

/-- **The arcs with dots between them**; octets with an arc of more than 64 bits are shown in
    hexadecimal. -/
def display : ObjectId → String
  | [] => ""
  | [0] => "0"
  | b :: bs =>
    if 64 < 7 * longestArc 0 0 bs then
      " ".intercalate ((b :: bs).map fun o => Octets.toHex [o])
    else ".".intercalate ((b.toNat / 40 :: b.toNat % 40 :: laterArcs 0 false bs).map toString)

/-! ## 3. Identifiers in keys -/

/-- Reads the arcs after the first two. An arc has at most five octets, the fifth below 16, and its
    low 32 bits count. -/
def strictArcs? : (count acc : Nat) → Octets → Option (List Nat)
  | 0, _, [] => some []
  | _ + 1, _, [] => none
  | count, acc, b :: bs =>
    if count = 4 ∧ b.toNat / 16 ≠ 0 then none
    else
      let n := (acc * 128 + b.toNat % 128) % 0x1_0000_0000
      if b < 128 then (strictArcs? 0 0 bs).map (n :: ·) else strictArcs? (count + 1) n bs

/-- The longest identifier in a key, in octets. -/
def sizeLimit : Nat := 39

/-- **The dotted text of an identifier that a key may use**: three to thirty-nine octets, a first arc
    of at most two, and finished arcs of at most five octets. -/
def dotted? : ObjectId → Option String
  | [] => none
  | b :: bs =>
    if bs.length < 2 ∨ sizeLimit < bs.length + 1 ∨ 120 ≤ b.toNat then none
    else (strictArcs? 0 0 bs).map fun arcs =>
      ".".intercalate ((b.toNat / 40 :: b.toNat % 40 :: arcs).map toString)

/-! ## 4. The identifiers this library knows -/

/-- Public keys for RSA. -/
def rsaEncryption : ObjectId := ofArcs [1, 2, 840, 113549, 1, 1, 1]
/-- RSA signatures. -/
def sha1WithRsa : ObjectId := ofArcs [1, 2, 840, 113549, 1, 1, 5]
def sha1WithRsaOld : ObjectId := ofArcs [1, 3, 14, 3, 2, 29]
def rsaPss : ObjectId := ofArcs [1, 2, 840, 113549, 1, 1, 10]
def sha256WithRsa : ObjectId := ofArcs [1, 2, 840, 113549, 1, 1, 11]
def sha384WithRsa : ObjectId := ofArcs [1, 2, 840, 113549, 1, 1, 12]
def sha512WithRsa : ObjectId := ofArcs [1, 2, 840, 113549, 1, 1, 13]
/-- Signatures on elliptic curves. -/
def ecdsaWithSha256 : ObjectId := ofArcs [1, 2, 840, 10045, 4, 3, 2]
def ecdsaWithSha384 : ObjectId := ofArcs [1, 2, 840, 10045, 4, 3, 3]
def ed25519 : ObjectId := ofArcs [1, 3, 101, 112]
/-- Curves. -/
def curveP256 : ObjectId := ofArcs [1, 2, 840, 10045, 3, 1, 7]
def curveP384 : ObjectId := ofArcs [1, 3, 132, 0, 34]
/-- Digests. -/
def digestSha256 : ObjectId := ofArcs [2, 16, 840, 1, 101, 3, 4, 2, 1]
def digestSha384 : ObjectId := ofArcs [2, 16, 840, 1, 101, 3, 4, 2, 2]
def digestSha512 : ObjectId := ofArcs [2, 16, 840, 1, 101, 3, 4, 2, 3]
/-- Attributes of names. -/
def commonName : ObjectId := ofArcs [2, 5, 4, 3]
def organizationName : ObjectId := ofArcs [2, 5, 4, 10]
/-- Extensions of certificates. -/
def subjectKeyIdentifier : ObjectId := ofArcs [2, 5, 29, 14]
def keyUsage : ObjectId := ofArcs [2, 5, 29, 15]
def subjectAlternativeName : ObjectId := ofArcs [2, 5, 29, 17]
def basicConstraints : ObjectId := ofArcs [2, 5, 29, 19]
def extendedKeyUsage : ObjectId := ofArcs [2, 5, 29, 37]
/-- Purposes of keys. -/
def serverAuthentication : ObjectId := ofArcs [1, 3, 6, 1, 5, 5, 7, 3, 1]

end ObjectId

end RootAuthority.Der
