/-!
# Sorting by insertion

Elements are put in order by a test that says which of two comes first. Elements that the test does
not tell apart keep their places. Where the test orders all elements, this fixes the result.

* `insertSorted`: an element put in its place.
* `insertionSort`: the elements of a list in order.
-/

namespace TableauSimplex.Sorting

variable {β : Type}

/-- A list in order with one more element, after all those that come before it. -/
def insertSorted (before : β → β → Bool) (x : β) : List β → List β
  | [] => [x]
  | y :: rest => if before y x then y :: insertSorted before x rest else x :: y :: rest

/-- The elements of a list in order. -/
def insertionSort (before : β → β → Bool) : List β → List β
  | [] => []
  | x :: rest => insertSorted before x (insertionSort before rest)

end TableauSimplex.Sorting
