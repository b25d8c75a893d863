import ViewLint.Model.Basic

/-!
# The base class library

Every model starts from the collection types of the C# base class library and from the projection
`Select` of its sequences, so that a model file has to bind only the expressions of its project.
-/

namespace ViewLint.Model

/-- A type of the namespace of generic collections. -/
def generic (name : String) : QualifiedName :=
  ⟨"System.Collections.Generic", name⟩

/-- A type of the namespace of immutable collections. -/
def immutable (name : String) : QualifiedName :=
  ⟨"System.Collections.Immutable", name⟩

/-- The collection types of the library, each with the interfaces it directly implements. -/
def collectionTypes : List (QualifiedName × List QualifiedName) :=
  let dictionary := [generic "IDictionary", generic "IReadOnlyDictionary"]
  let immutableDictionary := [immutable "IImmutableDictionary", generic "IDictionary"]
  [ (generic "IEnumerable", []),
    (generic "ICollection", [generic "IEnumerable"]),
    (generic "IReadOnlyCollection", [generic "IEnumerable"]),
    (generic "IList", [generic "ICollection", generic "IEnumerable"]),
    (generic "IReadOnlyList", [generic "IReadOnlyCollection", generic "IEnumerable"]),
    (generic "IDictionary", [generic "ICollection", generic "IEnumerable"]),
    (generic "IReadOnlyDictionary", [generic "IReadOnlyCollection", generic "IEnumerable"]),
    (immutable "IImmutableDictionary", [generic "IReadOnlyDictionary"]),
    (generic "Dictionary", dictionary),
    (generic "SortedDictionary", dictionary),
    (generic "SortedList", dictionary),
    (⟨"System.Collections.Concurrent", "ConcurrentDictionary"⟩, dictionary),
    (⟨"System.Collections.ObjectModel", "ReadOnlyDictionary"⟩, dictionary),
    (immutable "ImmutableDictionary", immutableDictionary),
    (immutable "ImmutableSortedDictionary", immutableDictionary),
    (generic "List", [generic "IList", generic "IReadOnlyList"]),
    (generic "HashSet", [generic "ICollection", generic "IReadOnlyCollection"]) ]

/-- The projection of a sequence. -/
def select : Method :=
  ⟨"Select", ⟨"System.Linq", "Enumerable"⟩, some (generic "IEnumerable")⟩

/-- The model that every project starts from. -/
def baseLibrary : Model :=
  let declared := collectionTypes.foldl (fun m d => m.declareType d.1 d.2) empty
  declared.registerExtension select

end ViewLint.Model
