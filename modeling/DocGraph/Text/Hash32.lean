namespace DocGraph.Hash32

/-!
# A short digest of bytes

Template arguments are told apart in names by eight hexadecimal digits:

* `mix` — one word into the state: rotate, exclusive or, multiply;
* `ofBytes` — the number of bytes as two words, then the bytes, four to a word in little-endian
  order and those left over one to a word;
* `hex` — the digest in lower-case hexadecimal, padded to eight digits.
-/

/-- Mix one word into the state. -/
def mix (h w : UInt32) : UInt32 :=
  (((h <<< 5) ||| (h >>> 27)) ^^^ w) * 0x27220A95

/-- Mix bytes into the state, four at a time while there are so many. -/
def mixBytes (h : UInt32) : List UInt8 → UInt32
  | a :: b :: c :: d :: rest =>
    mixBytes (mix h (a.toUInt32 ||| (b.toUInt32 <<< 8) ||| (c.toUInt32 <<< 16)
      ||| (d.toUInt32 <<< 24))) rest
  | rest => rest.foldl (fun h b => mix h b.toUInt32) h

/-- The digest of bytes. -/
def ofBytes (bytes : List UInt8) : UInt32 :=
  let length := bytes.length
  mixBytes (mix (mix 0 (UInt32.ofNat length)) (UInt32.ofNat (length >>> 32))) bytes

/-- Eight lower-case hexadecimal digits. -/
def hex (h : UInt32) : String :=
  let digits := Nat.toDigits 16 h.toNat
  String.ofList (List.replicate (8 - digits.length) '0' ++ digits)

end DocGraph.Hash32
