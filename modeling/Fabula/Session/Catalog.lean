namespace Fabula

/-!
# Catalogs

A catalog holds things by name.  A thing that is put under a name takes the place
of the one that was there.
-/

/-- Things by name, the latest first. -/
structure Catalog (α : Type) where
  entries : List (String × α)

namespace Catalog

variable {α : Type}

def empty : Catalog α :=
  ⟨[]⟩

def get? (catalog : Catalog α) (name : String) : Option α :=
  catalog.entries.lookup name

/-- Put a thing under a name. -/
def put (catalog : Catalog α) (name : String) (thing : α) : Catalog α :=
  ⟨(name, thing) :: catalog.entries.filter (fun entry => entry.1 != name)⟩

/-- The thing that was put under a name is found there. -/
@[simp]
theorem get?_put (catalog : Catalog α) (name : String) (thing : α) :
    (catalog.put name thing).get? name = some thing := by
  simp [get?, put]

end Catalog

end Fabula
