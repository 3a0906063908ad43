/-
The vocabulary of feed documents.

Feeds mix elements of several formats. Namespaces are known by their
addresses, in whatever case they are written, and each has one prefix here;
elements of the core formats have none. An element is then known by a word,
its prefix and its name in small letters, and words that mean the same have
one role.
-/
import FeedSieve.Xml.Event

namespace FeedSieve.Feed

/-- The namespaces and their prefixes. -/
def namespaces : List (String × String) :=
  [("http://backend.userland.com/rss", ""),
   ("http://blogs.law.harvard.edu/tech/rss", ""),
   ("http://purl.org/rss/1.0/", ""),
   ("http://my.netscape.com/rdf/simple/0.9/", ""),
   ("http://example.com/newformat#", ""),
   ("http://example.com/necho", ""),
   ("http://purl.org/echo/", ""),
   ("uri/of/echo/namespace#", ""),
   ("http://purl.org/pie/", ""),
   ("http://purl.org/atom/ns#", ""),
   ("http://www.w3.org/2005/atom", ""),
   ("http://purl.org/rss/1.0/modules/rss091#", ""),
   ("http://purl.org/rss/1.0/modules/content/", "content"),
   ("http://purl.org/dc/elements/1.1/", "dc"),
   ("http://purl.org/dc/terms/", "dcterms"),
   ("http://xmlns.com/foaf/0.1/", "foaf"),
   ("http://www.itunes.com/dtds/podcast-1.0.dtd", "itunes"),
   ("http://example.com/dtds/podcast-1.0.dtd", "itunes"),
   ("http://search.yahoo.com/mrss", "media"),
   ("http://search.yahoo.com/mrss/", "media"),
   ("http://www.w3.org/1999/02/22-rdf-syntax-ns#", "rdf"),
   ("http://www.w3.org/1999/xhtml", "xhtml"),
   ("http://www.w3.org/1999/xlink", "xlink"),
   ("http://www.w3.org/xml/1998/namespace", "xml"),
   ("http://webns.net/mvcb/", "admin"),
   ("http://purl.org/rss/1.0/modules/syndication/", "sy"),
   ("http://purl.org/rss/1.0/modules/slash/", "slash"),
   ("http://purl.org/rss/1.0/modules/threading/", "thr"),
   ("http://purl.org/rss/1.0/modules/image/", "image"),
   ("http://purl.org/rss/1.0/modules/email/", "email"),
   ("http://purl.org/rss/1.0/modules/link/", "l"),
   ("http://rssnamespace.org/feedburner/ext/1.0", "feedburner"),
   ("http://wellformedweb.org/commentapi/", "wfw"),
   ("http://www.georss.org/georss", "georss"),
   ("http://www.opengis.net/gml", "gml"),
   ("http://podlove.org/simple-chapters", "psc")]

/-- The address whose users may put anything behind it. -/
def loosePlain : Text := "backend.userland.com/rss"

/-- The prefix of a namespace, if it is known. -/
def prefixOf? (space : Text) : Option Text :=
  let space := Text.lowerPlain space
  if Text.occursIn loosePlain space then some []
  else (namespaces.find? fun entry => entry.1.toList == space).map (·.2.toList)

/-- The namespaces that by being bound make a document a feed. -/
def feedSpaces : List String := ["http://purl.org/rss/1.0/", "http://www.w3.org/2005/atom"]

/-- Whether binding a prefix to a namespace makes a document a feed. -/
def makesFeed (binding : Text × Text) : Bool :=
  let space := Text.lowerPlain binding.2
  feedSpaces.any (·.toList == space) ||
    (binding.1.isEmpty && space == "http://my.netscape.com/rdf/simple/0.9/".toList)

/-- Whether a namespace is that of Atom. -/
def isAtomSpace (space : Text) : Bool :=
  Text.lowerPlain space == "http://www.w3.org/2005/atom".toList

/-- What an element is for. -/
inductive Role where
  | rss | feed | channel | item
  | image | textInput | source
  | author | owner | contributor | name | email
  | title | minorTitle | link | enclosure | guid
  | description | summary | content | encoded | body | subtitle | rights
  | published | updated | language
  | category | mediaCategory | podcastCategory | podcastKeywords
  /-- Anything else. -/
  | other (word : Text)
deriving Repr, DecidableEq

/-- The words that have a role. -/
def roles : List (String × Role) :=
  [("rss", .rss), ("feed", .feed), ("channel", .channel), ("item", .item), ("entry", .item),
   ("image", .image), ("textinput", .textInput), ("source", .source),
   ("author", .author), ("managingeditor", .author), ("dc_author", .author),
   ("dc_creator", .author), ("itunes_author", .author), ("itunes_owner", .owner),
   ("contributor", .contributor), ("name", .name), ("itunes_name", .name), ("foaf_name", .name),
   ("email", .email), ("itunes_email", .email),
   ("title", .title), ("dc_title", .minorTitle), ("media_title", .minorTitle),
   ("link", .link), ("enclosure", .enclosure), ("guid", .guid), ("id", .guid),
   ("description", .description), ("dc_description", .description),
   ("media_description", .description),
   ("summary", .summary), ("itunes_summary", .summary),
   ("content", .content), ("content_encoded", .encoded), ("fullitem", .encoded),
   ("body", .body), ("xhtml_body", .body),
   ("subtitle", .subtitle), ("tagline", .subtitle), ("itunes_subtitle", .subtitle),
   ("rights", .rights), ("dc_rights", .rights), ("copyright", .rights),
   ("published", .published), ("dcterms_issued", .published), ("issued", .published),
   ("pubdate", .published),
   ("updated", .updated), ("modified", .updated), ("dcterms_modified", .updated),
   ("dc_date", .updated), ("lastbuilddate", .updated),
   ("language", .language), ("dc_language", .language),
   ("category", .category), ("dc_subject", .category), ("keywords", .category),
   ("media_category", .mediaCategory), ("itunes_category", .podcastCategory),
   ("itunes_keywords", .podcastKeywords)]

/-- The role of a word. -/
def roleOf (word : Text) : Role :=
  match roles.find? fun entry => entry.1.toList == word with
  | some (_, role) => role
  | none => .other word

/-- The word of an element: `inUse` are the prefixes bound so far, in the
order in which they first were. -/
def wordOfName (inUse : List (Text × Text)) (name : Xml.Name) : Text :=
  let base := Text.lowerPlain name.base
  let space := match prefixOf? name.space with
    | some space => space
    | none =>
        if name.space.isEmpty then []
        else ((inUse.find? fun binding => !binding.1.isEmpty && binding.2 == name.space).map
          fun binding => Text.lowerPlain binding.1).getD []
  if space.isEmpty then base else Text.concat [space, "_", base]

/-- The word of an attribute. -/
def wordOfAttribute (name : Xml.Name) : Text :=
  let base := Text.lowerPlain name.base
  match prefixOf? name.space with
  | some (c :: space) => Text.concat [c :: space, ":", base]
  | _ => base

end FeedSieve.Feed
