import DocGraph.Store.Visits

namespace DocGraph

/-!
# Reading a file piece by piece

* `Reader` — the part of a file that has not been read.  It is fetched when a reader first looks at
  it;
* `Opened.reader` — the reader of a file opened once.  A file opened before seems empty, so that its
  content is not seen twice;
* `Reader.peek`, `Reader.take`, `Reader.takeLine`, `Reader.takeAll` — the next bytes, and the reader
  after a look at them;
* `Reader.skip` — the reader after bytes that have been fetched.
-/

/-- The part of a file that has not been read. -/
structure Reader where
  rest : List UInt8 := []
  /-- Whether it has been fetched. -/
  fetched : Bool := false
deriving DecidableEq, Repr

/-- The reader of a file opened once. -/
def Opened.reader : Opened → Reader
  | .first body => { rest := body.toOption.getD [] }
  | .visited => {}

namespace Reader

/-- The byte that ends a line. -/
def lineEnd : UInt8 := 0x0a

/-- At most `count` bytes. -/
def take (r : Reader) (count : Nat) : List UInt8 × Reader :=
  (r.rest.take count, ⟨r.rest.drop count, true⟩)

/-- The bytes up to the end of the line, with the line end if there is one. -/
def takeLine (r : Reader) : List UInt8 × Reader :=
  r.take ((r.rest.takeWhile (· ≠ lineEnd)).length + 1)

/-- All bytes. -/
def takeAll (r : Reader) : List UInt8 × Reader := r.take r.rest.length

/-- All bytes, which remain to be read. -/
def peek (r : Reader) : List UInt8 × Reader := (r.rest, { r with fetched := true })

/-- Pass over `count` bytes that have been fetched. -/
def skip (r : Reader) (count : Nat) : Reader :=
  if r.fetched then { r with rest := r.rest.drop count } else r

end Reader

end DocGraph
