-- Pages: slices of a result, and the total that says how many there are.
import KeyAccess.Error

namespace KeyAccess

/-- The slice of a result that is asked for. -/
inductive Pageable
  /-- Everything, in one page. -/
  | unpaged
  /-- The page with a number, counted from 0, of pages of one size. -/
  | paged (page size : UInt32)
  deriving DecidableEq

namespace Pageable

/-- A page; its size is at least one. -/
def of (page size : UInt32) : Except QueryError Pageable :=
  if size = 0 then .error (.unsupportedOperation .emptyPageSize) else .ok (.paged page size)

/-- Whether the slice is a page. -/
def isPaged : Pageable → Bool
  | paged _ _ => true
  | unpaged => false

/-- How many elements stand before the slice. -/
def offset : Pageable → UInt64
  | unpaged => 0
  | paged page size => page.toUInt64 * size.toUInt64

/-- The size of a page. -/
def size : Pageable → Option UInt32
  | unpaged => none
  | paged _ size => some size

end Pageable

/-- A slice of a result. -/
structure Page (α : Type) where
  content : List α
  pageable : Pageable
  /-- The number of elements of the whole result. -/
  totalElements : UInt64
  deriving DecidableEq

namespace Page

variable {α : Type}

/-- The number of pages. The addition is one of 64 bits: a total and a size that make `2 ^ 64` wrap
around to zero, and one less is again what it should be. Where overflow is checked it panics. -/
def totalPages (p : Page α) : UInt64 :=
  match p.pageable with
  | .unpaged => 1
  | .paged _ size => (p.totalElements + size.toUInt64 - 1) / size.toUInt64

/-- The number of the page. -/
def number (p : Page α) : UInt32 :=
  match p.pageable with
  | .unpaged => 0
  | .paged page _ => page

/-- Whether there is a page after this one. -/
def hasNext (p : Page α) : Bool := p.number.toUInt64 + 1 < p.totalPages

/-- Whether there is a page before this one. -/
def hasPrevious (p : Page α) : Bool := 0 < p.number

end Page

end KeyAccess
