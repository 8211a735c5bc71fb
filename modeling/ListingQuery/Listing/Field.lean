import ListingQuery.Listing.Basic
import ListingQuery.Value.Basic

/-!
# Fields

The fields are the whole vocabulary of filters and sort keys.  A field has a name, a type that it
may ask of operands, and a value in every listing.  The value may be absent, which is ordinary; it
may also lie in a section that a listing must have, and if that section is missing the listing is
broken.  Only the list of object kinds cannot be sorted by.
-/

namespace ListingQuery

/-- The sections that some fields cannot do without. -/
inductive Section where
  | objektkategorie
  | geo
  | flaechen
  | ausstattung
  | verwaltungObjekt
  | verwaltungTechn
deriving DecidableEq, Repr

namespace Section

/-- The name of a section. -/
def name : Section → String
  | .objektkategorie => "objektkategorie"
  | .geo => "geo"
  | .flaechen => "flaechen"
  | .ausstattung => "ausstattung"
  | .verwaltungObjekt => "verwaltung_objekt"
  | .verwaltungTechn => "verwaltung_techn"

/-- The message for a listing without the section. -/
def missingMessage (s : Section) : String :=
  "record has no '" ++ s.name ++ "' section"

end Section

/-- The fields of queries. -/
inductive Field where
  | objektart
  | objekttyp
  | land
  | ort
  | ortsteil
  | plz
  | strasse
  | hausnummer
  | zimmer
  | etage
  | etagen
  | wohnflaeche
  | grundstuecksflaeche
  | balkone
  | terrassen
  | kaltmiete
  | warmmiete
  | nebenkosten
  | kaufpreis
  | pacht
  | erbpacht
  | miete
  | aussenCourtage
  | innenCourtage
  | openimmoObid
  | objektnrIntern
  | objektnrExtern
  | barrierefrei
  | haustiere
  | raucher
  | kaufbar
  | mietbar
  | erbpachtbar
  | leasing
  | verfuegbarAb
  | abdatum
  | moebliert
  | seniorengerecht
  | baujahr
  | zustand
  | epart
  | energieverbrauchkennwert
  | endenergiebedarf
  | primaerenergietraeger
  | stromwert
  | waermewert
  | wertklasse
  | minMietdauer
  | maxMietdauer
  | laufzeit
  | maxPersonen
deriving DecidableEq, Repr

namespace Field

/-- All fields, in the order in which they are listed. -/
def all : List Field :=
  [.objektart, .objekttyp, .land, .ort, .ortsteil, .plz, .strasse, .hausnummer, .zimmer, .etage,
    .etagen, .wohnflaeche, .grundstuecksflaeche, .balkone, .terrassen, .kaltmiete, .warmmiete,
    .nebenkosten, .kaufpreis, .pacht, .erbpacht, .miete, .aussenCourtage, .innenCourtage,
    .openimmoObid, .objektnrIntern, .objektnrExtern, .barrierefrei, .haustiere, .raucher,
    .kaufbar, .mietbar, .erbpachtbar, .leasing, .verfuegbarAb, .abdatum, .moebliert,
    .seniorengerecht, .baujahr, .zustand, .epart, .energieverbrauchkennwert, .endenergiebedarf,
    .primaerenergietraeger, .stromwert, .waermewert, .wertklasse, .minMietdauer, .maxMietdauer,
    .laufzeit, .maxPersonen]

/-- The name of a field in queries. -/
def name : Field → String
  | .objektart => "objektart"
  | .objekttyp => "objekttyp"
  | .land => "land"
  | .ort => "ort"
  | .ortsteil => "ortsteil"
  | .plz => "plz"
  | .strasse => "strasse"
  | .hausnummer => "hausnummer"
  | .zimmer => "zimmer"
  | .etage => "etage"
  | .etagen => "etagen"
  | .wohnflaeche => "wohnflaeche"
  | .grundstuecksflaeche => "grundstuecksflaeche"
  | .balkone => "balkone"
  | .terrassen => "terrassen"
  | .kaltmiete => "kaltmiete"
  | .warmmiete => "warmmiete"
  | .nebenkosten => "nebenkosten"
  | .kaufpreis => "kaufpreis"
  | .pacht => "pacht"
  | .erbpacht => "erbpacht"
  | .miete => "miete"
  | .aussenCourtage => "aussen_courtage"
  | .innenCourtage => "innen_courtage"
  | .openimmoObid => "openimmo_obid"
  | .objektnrIntern => "objektnr_intern"
  | .objektnrExtern => "objektnr_extern"
  | .barrierefrei => "barrierefrei"
  | .haustiere => "haustiere"
  | .raucher => "raucher"
  | .kaufbar => "kaufbar"
  | .mietbar => "mietbar"
  | .erbpachtbar => "erbpachtbar"
  | .leasing => "leasing"
  | .verfuegbarAb => "verfuegbar_ab"
  | .abdatum => "abdatum"
  | .moebliert => "moebliert"
  | .seniorengerecht => "seniorengerecht"
  | .baujahr => "baujahr"
  | .zustand => "zustand"
  | .epart => "epart"
  | .energieverbrauchkennwert => "energieverbrauchkennwert"
  | .endenergiebedarf => "endenergiebedarf"
  | .primaerenergietraeger => "primaerenergietraeger"
  | .stromwert => "stromwert"
  | .waermewert => "waermewert"
  | .wertklasse => "wertklasse"
  | .minMietdauer => "min_mietdauer"
  | .maxMietdauer => "max_mietdauer"
  | .laufzeit => "laufzeit"
  | .maxPersonen => "max_personen"

/-- The type that the field asks of operands, if it asks for one. -/
def declaredType : Field → Option ValueType
  | .plz | .hausnummer | .openimmoObid | .objektnrIntern | .objektnrExtern | .baujahr => some .str
  | .abdatum => some .date
  | _ => none

/-- Can listings be sorted by the field? -/
def isSortable : Field → Bool
  | .objekttyp => false
  | _ => true

/-- The field with a given name; names are matched letter by letter. -/
def ofName? (name : List Char) : Option Field :=
  all.find? fun f => f.name.toList == name

end Field

namespace Listing

/-- The content of a section, or the section that is missing. -/
def required {α : Type} (s : Section) (content : Option α) : Except Section α :=
  match content with
  | some a => .ok a
  | none => .error s

/-- A value in the section `objektkategorie`, which has to be there. -/
def inClassification (l : Listing) (pick : Classification → Option Value) :
    Except Section (Option Value) :=
  (required .objektkategorie l.objektkategorie).map pick

/-- A value in the section `geo`, which has to be there. -/
def inPlace (l : Listing) (pick : Place → Option Value) : Except Section (Option Value) :=
  (required .geo l.geo).map pick

/-- A value in the section `verwaltung_objekt`, which has to be there. -/
def inTerms (l : Listing) (pick : Terms → Option Value) : Except Section (Option Value) :=
  (required .verwaltungObjekt l.verwaltungObjekt).map pick

/-- A value in the section `verwaltung_techn`, which has to be there. -/
def inIdentification (l : Listing) (pick : Identification → Option Value) :
    Except Section (Option Value) :=
  (required .verwaltungTechn l.verwaltungTechn).map pick

end Listing

namespace Field

/-- A text as a value; an empty text is absent. -/
def ofText (s : Option String) : Option Value :=
  (nonEmpty? s).map .str

/-- An amount as a value; an amount of zero is absent. -/
def ofAmount (x : Option Binary64) : Option Value :=
  (x.filter fun y => !y.isZero).map .float

/-- A flag as a value; a flag that is not given is not set. -/
def ofFlag (b : Option Bool) : Option Value :=
  some (.bool (b.getD false))

/-- A period as a value. -/
def ofPeriod (p : Option RentalPeriod) : Option Value :=
  (p.bind RentalPeriod.text?).map .str

/-- The rent that counts: the warm rent, else the cold rent, else the net cold rent.  A cold rent
of zero is given, the other two are not. -/
def effectiveRent (p : Prices) : Option Value :=
  ofAmount p.warmmiete <|> p.kaltmiete.map .float <|> ofAmount p.nettokaltmiete

/-- How a property is furnished: the kind where it is given, else whether it is. -/
def ofFurnishing (f : Fittings) : Option Value :=
  match f.moebliert with
  | none => some (.bool false)
  | some furnishing => ofText furnishing.moeb <|> some (.bool true)

end Field

/-- A text of the energy certificate, if there is one. -/
def Listing.inEnergyPass (l : Listing) (pick : EnergyPass → Option String) : Option Value :=
  (l.zustandAngaben.bind (·.energiepass)).bind fun e => Field.ofText (pick e)

open ListingQuery.Field in
/-- The value of a field in a listing: present, absent, or in a section that is missing. -/
def Field.valueIn (f : Field) (l : Listing) : Except Section (Option Value) :=
  match f with
  | .objektart => l.inClassification fun c => ofText c.objektart
  | .objekttyp => l.inClassification fun c =>
    some (.list ((c.objekttypen.filter (· != "")).map .str))
  | .land => .ok (l.geo.bind fun p => ofText p.isoLand)
  | .ort => l.inPlace fun p => ofText p.ort
  | .ortsteil => l.inPlace fun p => ofText p.regionalerZusatz
  | .plz => l.inPlace fun p => ofText p.plz
  | .strasse => l.inPlace fun p => ofText p.strasse
  | .hausnummer => l.inPlace fun p => ofText p.hausnummer
  | .zimmer => (Listing.required .flaechen l.flaechen).map fun a => a.anzahlZimmer.map .float
  | .etage => l.inPlace fun p => p.etage.map .int
  | .etagen => l.inPlace fun p => p.anzahlEtagen.map .int
  | .wohnflaeche => .ok (l.flaechen.bind fun a => a.wohnflaeche.map .float)
  | .grundstuecksflaeche => .ok (l.flaechen.bind fun a => a.grundstuecksflaeche.map .float)
  | .balkone => .ok (l.flaechen.bind fun a => a.anzahlBalkone.map .float)
  | .terrassen => .ok (l.flaechen.bind fun a => a.anzahlTerrassen.map .float)
  | .kaltmiete => .ok (l.preise.bind fun p => p.kaltmiete.map .float)
  | .warmmiete => .ok (l.preise.bind fun p => ofAmount p.warmmiete)
  | .nebenkosten => .ok (l.preise.bind fun p => ofAmount p.nebenkosten)
  | .kaufpreis => .ok (l.preise.bind fun p => ofAmount p.kaufpreis)
  | .pacht => .ok (l.preise.bind fun p => ofAmount p.pacht)
  | .erbpacht => .ok (l.preise.bind fun p => ofAmount p.erbpacht)
  | .miete => .ok (l.preise.bind effectiveRent)
  | .aussenCourtage => .ok (l.preise.bind fun p => ofText p.aussenCourtage)
  | .innenCourtage => .ok (l.preise.bind fun p => ofText p.innenCourtage)
  | .openimmoObid => l.inIdentification fun i => some (.str i.openimmoObid)
  | .objektnrIntern => l.inIdentification fun i => ofText i.objektnrIntern
  | .objektnrExtern => l.inIdentification fun i => some (.str i.objektnrExtern)
  | .barrierefrei => .ok (ofFlag (l.ausstattung.bind (·.barrierefrei)))
  | .haustiere => .ok (ofFlag (l.verwaltungObjekt.bind (·.haustiere)))
  | .raucher => .ok (some (.bool (!(l.verwaltungObjekt.bind (·.nichtraucher)).getD false)))
  | .kaufbar => l.inClassification fun c => some (.bool c.vermarktungsart.kauf)
  | .mietbar => l.inClassification fun c => some (.bool c.vermarktungsart.mietePacht)
  | .erbpachtbar => l.inClassification fun c => some (.bool c.vermarktungsart.erbpacht)
  | .leasing => l.inClassification fun c => some (.bool c.vermarktungsart.leasing)
  | .verfuegbarAb => l.inTerms fun t => ofText t.verfuegbarAb
  | .abdatum => l.inTerms fun t => t.abdatum.map fun d => .date (Moment.startOf d)
  | .moebliert => (Listing.required .ausstattung l.ausstattung).map ofFurnishing
  | .seniorengerecht => .ok (ofFlag (l.ausstattung.bind (·.seniorengerecht)))
  | .baujahr => .ok (l.zustandAngaben.bind fun c => ofText c.baujahr)
  | .zustand => .ok (l.zustandAngaben.bind fun c => ofText c.zustandArt)
  | .epart => .ok (l.inEnergyPass (·.epart))
  | .energieverbrauchkennwert => .ok (l.inEnergyPass (·.energieverbrauchkennwert))
  | .endenergiebedarf => .ok (l.inEnergyPass (·.endenergiebedarf))
  | .primaerenergietraeger => .ok (l.inEnergyPass (·.primaerenergietraeger))
  | .stromwert => .ok (l.inEnergyPass (·.stromwert))
  | .waermewert => .ok (l.inEnergyPass (·.waermewert))
  | .wertklasse => .ok (l.inEnergyPass (·.wertklasse))
  | .minMietdauer => .ok (l.verwaltungObjekt.bind fun t => ofPeriod t.minMietdauer)
  | .maxMietdauer => .ok (l.verwaltungObjekt.bind fun t => ofPeriod t.maxMietdauer)
  | .laufzeit => .ok (l.verwaltungObjekt.bind fun t => ofAmount t.laufzeit)
  | .maxPersonen => .ok (l.verwaltungObjekt.bind fun t => (t.maxPersonen.filter (· != 0)).map .int)

end ListingQuery
