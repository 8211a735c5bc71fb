import ListingQuery.Text.Blank

/-!
# Attachments

What is known of an attachment of a listing without its body: title, group, where the body lies,
and how many bytes it has.  The group decides the category whose budget the attachment is charged
to; an attachment that lies with somebody else is a link and is never charged.
-/

namespace ListingQuery

/-- The groups of attachments. -/
inductive AttachmentGroup where
  | titelbild
  | innenansichten
  | aussenansichten
  | grundriss
  | kartenLageplan
  | anbieterlogo
  | bild
  | dokumente
  | links
  | panorama
  | qrcode
  | film
  | filmlink
  | epassSkala
  | anbobjurl
deriving DecidableEq, Repr

namespace AttachmentGroup

/-- All groups. -/
def all : List AttachmentGroup :=
  [.titelbild, .innenansichten, .aussenansichten, .grundriss, .kartenLageplan, .anbieterlogo,
    .bild, .dokumente, .links, .panorama, .qrcode, .film, .filmlink, .epassSkala, .anbobjurl]

/-- The name of a group in data and queries. -/
def name : AttachmentGroup → String
  | .titelbild => "TITELBILD"
  | .innenansichten => "INNENANSICHTEN"
  | .aussenansichten => "AUSSENANSICHTEN"
  | .grundriss => "GRUNDRISS"
  | .kartenLageplan => "KARTEN_LAGEPLAN"
  | .anbieterlogo => "ANBIETERLOGO"
  | .bild => "BILD"
  | .dokumente => "DOKUMENTE"
  | .links => "LINKS"
  | .panorama => "PANORAMA"
  | .qrcode => "QRCODE"
  | .film => "FILM"
  | .filmlink => "FILMLINK"
  | .epassSkala => "EPASS_SKALA"
  | .anbobjurl => "ANBOBJURL"

/-- The name of a group in explanations of a plan. -/
def label : AttachmentGroup → String
  | .titelbild => "Titelbild"
  | .innenansichten => "Innenansichten"
  | .aussenansichten => "Aussenansichten"
  | .grundriss => "Grundriss"
  | .kartenLageplan => "KartenLageplan"
  | .anbieterlogo => "Anbieterlogo"
  | .bild => "Bild"
  | .dokumente => "Dokumente"
  | .links => "Links"
  | .panorama => "Panorama"
  | .qrcode => "Qrcode"
  | .film => "Film"
  | .filmlink => "Filmlink"
  | .epassSkala => "EpassSkala"
  | .anbobjurl => "Anbobjurl"

/-- Is the group one of images?  A floor plan is an image too. -/
def isPicture : AttachmentGroup → Bool
  | .titelbild | .innenansichten | .aussenansichten | .grundriss | .kartenLageplan
  | .anbieterlogo | .bild | .panorama | .epassSkala => true
  | .dokumente | .links | .qrcode | .film | .filmlink | .anbobjurl => false

/-- Reads the name of a group as a query writes it: in letters of any case, with hyphens for
underscores, blanks around it. -/
def read? (cs : List Char) : Option AttachmentGroup :=
  let wanted := (Text.trim cs).map fun c => if c = '-' then '_' else Text.asciiUpper c
  all.find? fun g => g.name.toList == wanted

/-- The message for a name that no group has. -/
def unknownMessage (name : String) : String :=
  "unknown attachment group '" ++ name ++ "'"

end AttachmentGroup

/-- Where the body of an attachment lies. -/
inductive Location where
  | intern
  | external
  | remote
deriving DecidableEq, Repr

namespace Location

/-- All locations. -/
def all : List Location := [.intern, .external, .remote]

/-- The name of a location in data. -/
def name : Location → String
  | .intern => "INTERN"
  | .external => "EXTERN"
  | .remote => "REMOTE"

end Location

/-- The categories that attachments are budgeted by. -/
inductive Category where
  | picture
  | floorplan
  | document
  | other
deriving DecidableEq, Repr

namespace Category

/-- All categories, in the order in which they are served. -/
def all : List Category := [.picture, .floorplan, .document, .other]

/-- The category of a group, or of an attachment without one. -/
def ofGroup : Option AttachmentGroup → Category
  | some .grundriss => .floorplan
  | some .dokumente => .document
  | some g => if g.isPicture then .picture else .other
  | none => .other

/-- The name of a category in data. -/
def name : Category → String
  | .picture => "picture"
  | .floorplan => "floorplan"
  | .document => "document"
  | .other => "other"

/-- The key of a category in the attachments option. -/
def optionKey : Category → String
  | .picture => "pictures"
  | .floorplan => "floorplans"
  | .document => "documents"
  | .other => "other"

/-- The category with a given option key. -/
def ofOptionKey? (key : List Char) : Option Category :=
  all.find? fun c => c.optionKey.toList == key

end Category

/-- An attachment of a listing. -/
structure Attachment where
  title : Option String
  group : Option AttachmentGroup
  location : Location
  mimetype : Option String
  path : Option String
  sizeBytes : UInt64
deriving DecidableEq, Repr

namespace Attachment

/-- The category that the attachment is charged to. -/
def category (a : Attachment) : Category :=
  Category.ofGroup a.group

/-- Does the attachment lie with somebody else, so that it is never charged? -/
def isRemote (a : Attachment) : Bool :=
  a.location == .remote

end Attachment

end ListingQuery
