import PhpAudit.Risk

/-!
# The catalog of methods

A **catalog** says to which risks a sink is sensitive, and which risks a function removes from its
result. Names are matched exactly, letter case included; a name without entry is something else than
a name with the empty set. A catalog is parsed from two tables of comma separated risk names.
-/

namespace PhpAudit

/-- **A catalog.** Of two entries of a name the first counts. -/
structure Catalog where
  dangerous : List (Text × RiskSet)
  mitigating : List (Text × RiskSet)
deriving Inhabited

/-- Why a table is refused: an entry holds a name that is no risk. -/
structure BadEntry where
  name : Text
  reason : UnknownRisk
deriving DecidableEq, Repr

/-- The wording of a refused entry. -/
def BadEntry.message (e : BadEntry) : Text :=
  "entry " ++ Text.quoted e.name ++ ": " ++ e.reason.message

/-- Why a catalog is refused. -/
inductive CatalogError where
  | dangerous (e : BadEntry)
  | mitigating (e : BadEntry)
deriving DecidableEq, Repr

/-- The wording of a refused catalog. -/
def CatalogError.message : CatalogError → Text
  | .dangerous e => "dangerous methods: " ++ e.message
  | .mitigating e => "mitigating methods: " ++ e.message

namespace Catalog

/-- The risk sets of a table. -/
def parseTable (table : List (Text × Text)) : Except BadEntry (List (Text × RiskSet)) :=
  table.mapM fun (name, risks) =>
    match RiskSet.parseList? risks with
    | .ok s => .ok (name, s)
    | .error e => .error ⟨name, e⟩

/-- **The catalog of two tables.** -/
def parse (dangerous mitigating : List (Text × Text)) : Except CatalogError Catalog :=
  match parseTable dangerous with
  | .error e => .error (.dangerous e)
  | .ok d =>
    match parseTable mitigating with
    | .error e => .error (.mitigating e)
    | .ok m => .ok ⟨d, m⟩

/-- The risks a sink is sensitive to; `none` for a name without entry. -/
def dangers? (c : Catalog) (name : Text) : Option RiskSet := c.dangerous.lookup name

/-- The risks a function removes; `none` for a name without entry. -/
def mitigations? (c : Catalog) (name : Text) : Option RiskSet := c.mitigating.lookup name

/-- The risks a function removes, none without entry. -/
def mitigations (c : Catalog) (name : Text) : RiskSet := (c.mitigations? name).getD ∅

end Catalog

end PhpAudit
