import ListingQuery.Calendar.Basic
import ListingQuery.Listing.Attachment
import ListingQuery.Number.Binary64

/-!
# Listings

A listing offers a property for sale or rent.  It follows the exchange format of real estate: a
listing has sections, and sections have elements with the names of the format.  Feeds leave out
sections and elements freely, so nearly everything is optional; which absence is a fault is for the
fields of queries to say.
-/

namespace ListingQuery

/-- How a property is marketed. -/
structure Marketing where
  kauf : Bool
  mietePacht : Bool
  erbpacht : Bool
  leasing : Bool
deriving DecidableEq, Repr

/-- What kind of property it is: the section `objektkategorie`. -/
structure Classification where
  objektart : Option String
  objekttypen : List String
  vermarktungsart : Marketing
deriving DecidableEq, Repr

/-- Where the property is: the section `geo`. -/
structure Place where
  plz : Option String
  ort : Option String
  regionalerZusatz : Option String
  strasse : Option String
  hausnummer : Option String
  isoLand : Option String
  etage : Option Int64
  anzahlEtagen : Option Int64
deriving DecidableEq, Repr

/-- What the property costs: the section `preise`. -/
structure Prices where
  kaltmiete : Option Binary64
  warmmiete : Option Binary64
  nettokaltmiete : Option Binary64
  nebenkosten : Option Binary64
  kaufpreis : Option Binary64
  pacht : Option Binary64
  erbpacht : Option Binary64
  aussenCourtage : Option String
  innenCourtage : Option String
deriving DecidableEq, Repr

/-- How large the property is: the section `flaechen`. -/
structure Areas where
  anzahlZimmer : Option Binary64
  wohnflaeche : Option Binary64
  grundstuecksflaeche : Option Binary64
  anzahlBalkone : Option Binary64
  anzahlTerrassen : Option Binary64
deriving DecidableEq, Repr

/-- The element `moebliert`: present means furnished, `moeb` says how. -/
structure Furnishing where
  moeb : Option String
deriving DecidableEq, Repr

/-- What the property is fitted with: the section `ausstattung`. -/
structure Fittings where
  barrierefrei : Option Bool
  seniorengerecht : Option Bool
  moebliert : Option Furnishing
deriving DecidableEq, Repr

/-- The energy certificate: the element `energiepass`. -/
structure EnergyPass where
  epart : Option String
  energieverbrauchkennwert : Option String
  endenergiebedarf : Option String
  primaerenergietraeger : Option String
  stromwert : Option String
  waermewert : Option String
  wertklasse : Option String
deriving DecidableEq, Repr

/-- What condition the property is in: the section `zustand_angaben`. -/
structure Condition where
  baujahr : Option String
  zustandArt : Option String
  energiepass : Option EnergyPass
deriving DecidableEq, Repr

/-- A period of rent, a count and a unit. -/
structure RentalPeriod where
  wert : Option String
  einheit : Option String
deriving DecidableEq, Repr

/-- On what terms the property is let: the section `verwaltung_objekt`. -/
structure Terms where
  haustiere : Option Bool
  nichtraucher : Option Bool
  verfuegbarAb : Option String
  abdatum : Option Date
  minMietdauer : Option RentalPeriod
  maxMietdauer : Option RentalPeriod
  laufzeit : Option Binary64
  maxPersonen : Option Int64
deriving DecidableEq, Repr

/-- What the listing is known by: the section `verwaltung_techn`. -/
structure Identification where
  openimmoObid : String
  objektnrIntern : Option String
  objektnrExtern : String
deriving DecidableEq, Repr

/-- The texts of the listing: the section `freitexte`. -/
structure FreeTexts where
  objekttitel : Option String
  lage : Option String
  ausstattBeschr : Option String
  objektbeschreibung : Option String
  sonstigeAngaben : Option String
deriving DecidableEq, Repr

/-- A listing. -/
structure Listing where
  objektkategorie : Option Classification
  geo : Option Place
  preise : Option Prices
  flaechen : Option Areas
  ausstattung : Option Fittings
  zustandAngaben : Option Condition
  verwaltungObjekt : Option Terms
  verwaltungTechn : Option Identification
  freitexte : Option FreeTexts
  anhaenge : List Attachment
deriving DecidableEq, Repr

/-- Marketing of which nothing is known. -/
def Marketing.empty : Marketing := ⟨false, false, false, false⟩

/-- A listing of which nothing is known. -/
def Listing.empty : Listing :=
  ⟨none, none, none, none, none, none, none, none, none, []⟩

/-- A text that says something. -/
def nonEmpty? (s : Option String) : Option String :=
  s.filter (· != "")

/-- The text of a period: the count and, if it is given, the unit. -/
def RentalPeriod.text? (p : RentalPeriod) : Option String :=
  match nonEmpty? p.wert with
  | none => none
  | some wert =>
    match nonEmpty? p.einheit with
    | none => some wert
    | some einheit => some (wert ++ " " ++ einheit)

/-- The listing without the parts that were not asked for. -/
def Listing.projected (l : Listing) (freeTexts attachments : Bool) : Listing :=
  { l with
    freitexte := if freeTexts then l.freitexte else none
    anhaenge := if attachments then l.anhaenge else [] }

end ListingQuery
