/-!
# `Marker` — the type names that rules refer to

Classification never looks into a type: it asks whether a type's simple name is, or is declared to be a subtype of,
one of these names.
-/

namespace QueryContract.Marker

/-- What can be iterated over. -/
def iterable : String := "Iterable"

/-- Collections that are held in memory. -/
def collection : String := "Collection"

/-- Results that can be iterated over or streamed. -/
def streamable : String := "Streamable"

/-- A chunk of results that knows the total count. -/
def page : String := "Page"

/-- A chunk of results that does not know the total count. -/
def slice : String := "Slice"

/-- A scroll result that carries the position to go on from. -/
def window : String := "Window"

/-- Search results with their relevance. -/
def searchResults : String := "SearchResults"

/-- A single search hit. -/
def searchResult : String := "SearchResult"

/-- A sequence that is evaluated lazily. -/
def stream : String := "Stream"

/-- A request for a page. -/
def pageable : String := "Pageable"

/-- An order of results. -/
def sort : String := "Sort"

/-- A cap on the number of results. -/
def limit : String := "Limit"

/-- A position in a scroll. -/
def scrollPosition : String := "ScrollPosition"

end QueryContract.Marker
