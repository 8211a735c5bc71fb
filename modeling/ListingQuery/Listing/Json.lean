import ListingQuery.Calendar.Reading
import ListingQuery.Calendar.Writing
import ListingQuery.Json.Reader
import ListingQuery.Listing.Basic

/-!
# Listings as JSON

A record is written as an object with all its elements in a fixed order, `null` for what is absent.
It is read from an object, in which elements may be missing or stand in any order, unknown ones are
ignored and a known one must not be repeated, or from an array of its elements in their order, of
which the last ones may be missing.
-/

namespace ListingQuery

namespace Json

/-- The value of a key that is not repeated. -/
def single? (members : List (String × Json)) (key : String) : Option (Option Json) :=
  match valuesAt key members with
  | [] => some none
  | [j] => some (some j)
  | _ => none

/-- The elements of a record with the given keys, in the order of the keys. -/
def elements? (keys : List String) : Json → Option (List (Option Json))
  | .object members => keys.mapM (single? members)
  | .array items =>
    if items.length ≤ keys.length then
      some (items.map some ++ List.replicate (keys.length - items.length) none)
    else none
  | _ => none

/-- An element that may be missing or `null`. -/
def optional? {α : Type} (read? : Json → Option α) : Option Json → Option (Option α)
  | none => some none
  | some j => nullable? read? j

/-- An element that has a value when it is missing. -/
def orElse? {α : Type} (missing : α) (read? : Json → Option α) : Option Json → Option α
  | none => some missing
  | some j => read? j

/-- A name out of a list of names, as a text or as the only key of an object with `null`. -/
def name? : Json → Option String
  | .str s => some s
  | .object [(s, .null)] => some s
  | _ => none

/-- A date. -/
def ofDate (d : Date) : Json := .str (String.ofList d.text)

/-- Reads a date. -/
def date? (j : Json) : Option Date :=
  j.str?.bind fun s => Date.readIso? s.toList

/-- An optional text. -/
def ofStr? (s : Option String) : Json := ofOption .str s

/-- An optional truth value. -/
def ofBool? (b : Option Bool) : Json := ofOption .bool b

/-- An optional integer. -/
def ofInt64? (i : Option Int64) : Json := ofOption ofInt64 i

/-- An optional number. -/
def ofFloat64? (x : Option Binary64) : Json := ofOption .float x

end Json

open Json

namespace AttachmentGroup

/-- Reads the name of a group in data; the energy scale has a second spelling. -/
def ofJson? (j : Json) : Option AttachmentGroup :=
  j.name?.bind fun s =>
    if s = "EPASS-SKALA" then some .epassSkala else all.find? fun g => g.name == s

end AttachmentGroup

namespace Location

/-- Reads the name of a location in data. -/
def ofJson? (j : Json) : Option Location :=
  j.name?.bind fun s => all.find? fun l => l.name == s

end Location

namespace Attachment

/-- The elements of an attachment. -/
def keys : List String := ["title", "group", "location", "mimetype", "path", "size_bytes"]

/-- An attachment as JSON. -/
def toJson (a : Attachment) : Json :=
  .object [("title", ofStr? a.title), ("group", ofOption (fun g => .str g.name) a.group),
    ("location", .str a.location.name), ("mimetype", ofStr? a.mimetype), ("path", ofStr? a.path),
    ("size_bytes", ofUInt64 a.sizeBytes)]

/-- Reads an attachment.  The size must not be missing. -/
def ofJson? (j : Json) : Option Attachment :=
  match j.elements? keys with
  | some [title, group, location, mimetype, path, some sizeBytes] => do
    return ⟨← optional? str? title, ← optional? AttachmentGroup.ofJson? group,
      ← orElse? .intern Location.ofJson? location, ← optional? str? mimetype,
      ← optional? str? path, ← sizeBytes.uint64?⟩
  | _ => none

end Attachment

namespace Marketing

/-- The elements of marketing. -/
def keys : List String := ["kauf", "miete_pacht", "erbpacht", "leasing"]

/-- Marketing as JSON. -/
def toJson (m : Marketing) : Json :=
  .object [("kauf", .bool m.kauf), ("miete_pacht", .bool m.mietePacht),
    ("erbpacht", .bool m.erbpacht), ("leasing", .bool m.leasing)]

/-- Reads marketing. -/
def ofJson? (j : Json) : Option Marketing :=
  match j.elements? keys with
  | some [kauf, mietePacht, erbpacht, leasing] => do
    return ⟨← orElse? false bool? kauf, ← orElse? false bool? mietePacht,
      ← orElse? false bool? erbpacht, ← orElse? false bool? leasing⟩
  | _ => none

end Marketing

namespace Classification

/-- The elements of a classification. -/
def keys : List String := ["objektart", "objekttypen", "vermarktungsart"]

/-- A classification as JSON. -/
def toJson (c : Classification) : Json :=
  .object [("objektart", ofStr? c.objektart), ("objekttypen", ofStrings c.objekttypen),
    ("vermarktungsart", c.vermarktungsart.toJson)]

/-- Reads a classification. -/
def ofJson? (j : Json) : Option Classification :=
  match j.elements? keys with
  | some [objektart, objekttypen, vermarktungsart] => do
    return ⟨← optional? str? objektart, ← orElse? [] (list? str?) objekttypen,
      ← orElse? Marketing.empty Marketing.ofJson? vermarktungsart⟩
  | _ => none

end Classification

namespace Place

/-- The elements of a place. -/
def keys : List String :=
  ["plz", "ort", "regionaler_zusatz", "strasse", "hausnummer", "iso_land", "etage",
    "anzahl_etagen"]

/-- A place as JSON. -/
def toJson (p : Place) : Json :=
  .object [("plz", ofStr? p.plz), ("ort", ofStr? p.ort),
    ("regionaler_zusatz", ofStr? p.regionalerZusatz), ("strasse", ofStr? p.strasse),
    ("hausnummer", ofStr? p.hausnummer), ("iso_land", ofStr? p.isoLand),
    ("etage", ofInt64? p.etage), ("anzahl_etagen", ofInt64? p.anzahlEtagen)]

/-- Reads a place. -/
def ofJson? (j : Json) : Option Place :=
  match j.elements? keys with
  | some [plz, ort, regionalerZusatz, strasse, hausnummer, isoLand, etage, anzahlEtagen] => do
    return ⟨← optional? str? plz, ← optional? str? ort, ← optional? str? regionalerZusatz,
      ← optional? str? strasse, ← optional? str? hausnummer, ← optional? str? isoLand,
      ← optional? int64? etage, ← optional? int64? anzahlEtagen⟩
  | _ => none

end Place

namespace Prices

/-- The elements of prices. -/
def keys : List String :=
  ["kaltmiete", "warmmiete", "nettokaltmiete", "nebenkosten", "kaufpreis", "pacht", "erbpacht",
    "aussen_courtage", "innen_courtage"]

/-- Prices as JSON. -/
def toJson (p : Prices) : Json :=
  .object [("kaltmiete", ofFloat64? p.kaltmiete), ("warmmiete", ofFloat64? p.warmmiete),
    ("nettokaltmiete", ofFloat64? p.nettokaltmiete), ("nebenkosten", ofFloat64? p.nebenkosten),
    ("kaufpreis", ofFloat64? p.kaufpreis), ("pacht", ofFloat64? p.pacht),
    ("erbpacht", ofFloat64? p.erbpacht), ("aussen_courtage", ofStr? p.aussenCourtage),
    ("innen_courtage", ofStr? p.innenCourtage)]

/-- Reads prices. -/
def ofJson? (j : Json) : Option Prices :=
  match j.elements? keys with
  | some [kaltmiete, warmmiete, nettokaltmiete, nebenkosten, kaufpreis, pacht, erbpacht,
      aussenCourtage, innenCourtage] => do
    return ⟨← optional? float? kaltmiete, ← optional? float? warmmiete,
      ← optional? float? nettokaltmiete, ← optional? float? nebenkosten,
      ← optional? float? kaufpreis, ← optional? float? pacht, ← optional? float? erbpacht,
      ← optional? str? aussenCourtage, ← optional? str? innenCourtage⟩
  | _ => none

end Prices

namespace Areas

/-- The elements of areas. -/
def keys : List String :=
  ["anzahl_zimmer", "wohnflaeche", "grundstuecksflaeche", "anzahl_balkone", "anzahl_terrassen"]

/-- Areas as JSON. -/
def toJson (a : Areas) : Json :=
  .object [("anzahl_zimmer", ofFloat64? a.anzahlZimmer), ("wohnflaeche", ofFloat64? a.wohnflaeche),
    ("grundstuecksflaeche", ofFloat64? a.grundstuecksflaeche),
    ("anzahl_balkone", ofFloat64? a.anzahlBalkone),
    ("anzahl_terrassen", ofFloat64? a.anzahlTerrassen)]

/-- Reads areas. -/
def ofJson? (j : Json) : Option Areas :=
  match j.elements? keys with
  | some [anzahlZimmer, wohnflaeche, grundstuecksflaeche, anzahlBalkone, anzahlTerrassen] => do
    return ⟨← optional? float? anzahlZimmer, ← optional? float? wohnflaeche,
      ← optional? float? grundstuecksflaeche, ← optional? float? anzahlBalkone,
      ← optional? float? anzahlTerrassen⟩
  | _ => none

end Areas

namespace Furnishing

/-- The elements of furnishing. -/
def keys : List String := ["moeb"]

/-- Furnishing as JSON. -/
def toJson (f : Furnishing) : Json :=
  .object [("moeb", ofStr? f.moeb)]

/-- Reads furnishing. -/
def ofJson? (j : Json) : Option Furnishing :=
  match j.elements? keys with
  | some [moeb] => do return ⟨← optional? str? moeb⟩
  | _ => none

end Furnishing

namespace Fittings

/-- The elements of fittings. -/
def keys : List String := ["barrierefrei", "seniorengerecht", "moebliert"]

/-- Fittings as JSON. -/
def toJson (f : Fittings) : Json :=
  .object [("barrierefrei", ofBool? f.barrierefrei),
    ("seniorengerecht", ofBool? f.seniorengerecht),
    ("moebliert", ofOption Furnishing.toJson f.moebliert)]

/-- Reads fittings. -/
def ofJson? (j : Json) : Option Fittings :=
  match j.elements? keys with
  | some [barrierefrei, seniorengerecht, moebliert] => do
    return ⟨← optional? bool? barrierefrei, ← optional? bool? seniorengerecht,
      ← optional? Furnishing.ofJson? moebliert⟩
  | _ => none

end Fittings

namespace EnergyPass

/-- The elements of an energy certificate. -/
def keys : List String :=
  ["epart", "energieverbrauchkennwert", "endenergiebedarf", "primaerenergietraeger", "stromwert",
    "waermewert", "wertklasse"]

/-- An energy certificate as JSON. -/
def toJson (e : EnergyPass) : Json :=
  .object [("epart", ofStr? e.epart),
    ("energieverbrauchkennwert", ofStr? e.energieverbrauchkennwert),
    ("endenergiebedarf", ofStr? e.endenergiebedarf),
    ("primaerenergietraeger", ofStr? e.primaerenergietraeger), ("stromwert", ofStr? e.stromwert),
    ("waermewert", ofStr? e.waermewert), ("wertklasse", ofStr? e.wertklasse)]

/-- Reads an energy certificate. -/
def ofJson? (j : Json) : Option EnergyPass :=
  match j.elements? keys with
  | some [epart, energieverbrauchkennwert, endenergiebedarf, primaerenergietraeger, stromwert,
      waermewert, wertklasse] => do
    return ⟨← optional? str? epart, ← optional? str? energieverbrauchkennwert,
      ← optional? str? endenergiebedarf, ← optional? str? primaerenergietraeger,
      ← optional? str? stromwert, ← optional? str? waermewert, ← optional? str? wertklasse⟩
  | _ => none

end EnergyPass

namespace Condition

/-- The elements of a condition. -/
def keys : List String := ["baujahr", "zustand_art", "energiepass"]

/-- A condition as JSON. -/
def toJson (c : Condition) : Json :=
  .object [("baujahr", ofStr? c.baujahr), ("zustand_art", ofStr? c.zustandArt),
    ("energiepass", ofOption EnergyPass.toJson c.energiepass)]

/-- Reads a condition. -/
def ofJson? (j : Json) : Option Condition :=
  match j.elements? keys with
  | some [baujahr, zustandArt, energiepass] => do
    return ⟨← optional? str? baujahr, ← optional? str? zustandArt,
      ← optional? EnergyPass.ofJson? energiepass⟩
  | _ => none

end Condition

namespace RentalPeriod

/-- The elements of a period. -/
def keys : List String := ["wert", "einheit"]

/-- A period as JSON. -/
def toJson (p : RentalPeriod) : Json :=
  .object [("wert", ofStr? p.wert), ("einheit", ofStr? p.einheit)]

/-- Reads a period. -/
def ofJson? (j : Json) : Option RentalPeriod :=
  match j.elements? keys with
  | some [wert, einheit] => do return ⟨← optional? str? wert, ← optional? str? einheit⟩
  | _ => none

end RentalPeriod

namespace Terms

/-- The elements of terms. -/
def keys : List String :=
  ["haustiere", "nichtraucher", "verfuegbar_ab", "abdatum", "min_mietdauer", "max_mietdauer",
    "laufzeit", "max_personen"]

/-- Terms as JSON. -/
def toJson (t : Terms) : Json :=
  .object [("haustiere", ofBool? t.haustiere), ("nichtraucher", ofBool? t.nichtraucher),
    ("verfuegbar_ab", ofStr? t.verfuegbarAb), ("abdatum", ofOption ofDate t.abdatum),
    ("min_mietdauer", ofOption RentalPeriod.toJson t.minMietdauer),
    ("max_mietdauer", ofOption RentalPeriod.toJson t.maxMietdauer),
    ("laufzeit", ofFloat64? t.laufzeit), ("max_personen", ofInt64? t.maxPersonen)]

/-- Reads terms. -/
def ofJson? (j : Json) : Option Terms :=
  match j.elements? keys with
  | some [haustiere, nichtraucher, verfuegbarAb, abdatum, minMietdauer, maxMietdauer, laufzeit,
      maxPersonen] => do
    return ⟨← optional? bool? haustiere, ← optional? bool? nichtraucher,
      ← optional? str? verfuegbarAb, ← optional? date? abdatum,
      ← optional? RentalPeriod.ofJson? minMietdauer, ← optional? RentalPeriod.ofJson? maxMietdauer,
      ← optional? float? laufzeit, ← optional? int64? maxPersonen⟩
  | _ => none

end Terms

namespace Identification

/-- The elements of an identification. -/
def keys : List String := ["openimmo_obid", "objektnr_intern", "objektnr_extern"]

/-- An identification as JSON. -/
def toJson (i : Identification) : Json :=
  .object [("openimmo_obid", .str i.openimmoObid), ("objektnr_intern", ofStr? i.objektnrIntern),
    ("objektnr_extern", .str i.objektnrExtern)]

/-- Reads an identification.  The two numbers that are not optional are empty when missing. -/
def ofJson? (j : Json) : Option Identification :=
  match j.elements? keys with
  | some [openimmoObid, objektnrIntern, objektnrExtern] => do
    return ⟨← orElse? "" str? openimmoObid, ← optional? str? objektnrIntern,
      ← orElse? "" str? objektnrExtern⟩
  | _ => none

end Identification

namespace FreeTexts

/-- The elements of free texts. -/
def keys : List String :=
  ["objekttitel", "lage", "ausstatt_beschr", "objektbeschreibung", "sonstige_angaben"]

/-- Free texts as JSON. -/
def toJson (f : FreeTexts) : Json :=
  .object [("objekttitel", ofStr? f.objekttitel), ("lage", ofStr? f.lage),
    ("ausstatt_beschr", ofStr? f.ausstattBeschr),
    ("objektbeschreibung", ofStr? f.objektbeschreibung),
    ("sonstige_angaben", ofStr? f.sonstigeAngaben)]

/-- Reads free texts. -/
def ofJson? (j : Json) : Option FreeTexts :=
  match j.elements? keys with
  | some [objekttitel, lage, ausstattBeschr, objektbeschreibung, sonstigeAngaben] => do
    return ⟨← optional? str? objekttitel, ← optional? str? lage, ← optional? str? ausstattBeschr,
      ← optional? str? objektbeschreibung, ← optional? str? sonstigeAngaben⟩
  | _ => none

end FreeTexts

namespace Listing

/-- The sections of a listing. -/
def keys : List String :=
  ["objektkategorie", "geo", "preise", "flaechen", "ausstattung", "zustand_angaben",
    "verwaltung_objekt", "verwaltung_techn", "freitexte", "anhaenge"]

/-- A listing as JSON. -/
def toJson (l : Listing) : Json :=
  .object [("objektkategorie", ofOption Classification.toJson l.objektkategorie),
    ("geo", ofOption Place.toJson l.geo), ("preise", ofOption Prices.toJson l.preise),
    ("flaechen", ofOption Areas.toJson l.flaechen),
    ("ausstattung", ofOption Fittings.toJson l.ausstattung),
    ("zustand_angaben", ofOption Condition.toJson l.zustandAngaben),
    ("verwaltung_objekt", ofOption Terms.toJson l.verwaltungObjekt),
    ("verwaltung_techn", ofOption Identification.toJson l.verwaltungTechn),
    ("freitexte", ofOption FreeTexts.toJson l.freitexte),
    ("anhaenge", .array (l.anhaenge.map Attachment.toJson))]

/-- Reads a listing. -/
def ofJson? (j : Json) : Option Listing :=
  match j.elements? keys with
  | some [objektkategorie, geo, preise, flaechen, ausstattung, zustandAngaben, verwaltungObjekt,
      verwaltungTechn, freitexte, anhaenge] => do
    return ⟨← optional? Classification.ofJson? objektkategorie, ← optional? Place.ofJson? geo,
      ← optional? Prices.ofJson? preise, ← optional? Areas.ofJson? flaechen,
      ← optional? Fittings.ofJson? ausstattung, ← optional? Condition.ofJson? zustandAngaben,
      ← optional? Terms.ofJson? verwaltungObjekt,
      ← optional? Identification.ofJson? verwaltungTechn, ← optional? FreeTexts.ofJson? freitexte,
      ← orElse? [] (list? Attachment.ofJson?) anhaenge⟩
  | _ => none

/-- Reads a listing from JSON text. -/
def read? (text : String) : Option Listing :=
  (Json.read? text.toList).bind ofJson?

/-- Reads a list of listings from JSON text. -/
def readAll? (text : String) : Option (List Listing) :=
  (Json.read? text.toList).bind (list? ofJson?)

end Listing

end ListingQuery
