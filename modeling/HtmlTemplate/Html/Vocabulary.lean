-- SUMMARY: The element and attribute names that HTML treats in a way of their own.
import HtmlTemplate.Text.LowerCase
import HtmlTemplate.Html.Forest
import HtmlTemplate.Html.Token

/-!
# The vocabulary of HTML

Sets of element names that the construction rules tell apart, the spelling that
SVG and MathML give to names that source text writes in lower case, and the
attributes that belong to a namespace inside foreign elements.
-/

namespace HtmlTemplate.Html

/-! ## Elements of HTML -/

/-- Elements that stop the search for the element of a stray end tag. -/
def specialNames : List String :=
  ["address", "applet", "area", "article", "aside", "base", "basefont", "bgsound", "blockquote",
   "body", "br", "button", "caption", "center", "col", "colgroup", "dd", "details", "dir", "div",
   "dl", "dt", "embed", "fieldset", "figcaption", "figure", "footer", "form", "frame", "frameset",
   "h1", "h2", "h3", "h4", "h5", "h6", "head", "header", "hgroup", "hr", "html", "iframe", "img",
   "input", "isindex", "keygen", "li", "link", "listing", "main", "marquee", "menu", "meta", "nav",
   "noembed", "noframes", "noscript", "object", "ol", "p", "param", "plaintext", "pre", "script",
   "section", "select", "source", "style", "summary", "table", "tbody", "td", "template",
   "textarea", "tfoot", "th", "thead", "title", "tr", "track", "ul", "wbr", "xmp"]

/-- Blocks: they end an open paragraph. -/
def blockNames : List String :=
  ["address", "article", "aside", "blockquote", "center", "details", "dialog", "dir", "div", "dl",
   "fieldset", "figcaption", "figure", "footer", "header", "hgroup", "main", "menu", "nav", "ol",
   "p", "search", "section", "summary", "ul"]

/-- Blocks whose end tag closes what is open inside them. -/
def closingBlockNames : List String :=
  ["address", "article", "aside", "blockquote", "button", "center", "details", "dialog", "dir",
   "div", "dl", "fieldset", "figcaption", "figure", "footer", "header", "hgroup", "listing",
   "main", "menu", "nav", "ol", "pre", "search", "section", "summary", "ul"]

def headingNames : List String := ["h1", "h2", "h3", "h4", "h5", "h6"]

/-- Formatting: it is opened again in the next block when a block ends too early. -/
def formattingNames : List String :=
  ["b", "big", "code", "em", "font", "i", "s", "small", "strike", "strong", "tt", "u"]

/-- Elements that belong into the head wherever they stand. -/
def headNames : List String :=
  ["base", "basefont", "bgsound", "link", "meta", "noframes", "script", "style", "template",
   "title"]

/-- Elements that an end tag further out closes without being named. -/
def impliedEndNames : List String :=
  ["dd", "dt", "li", "option", "optgroup", "p", "rb", "rp", "rt", "rtc"]

/-- The same, for the end of a template. -/
def templateImpliedEndNames : List String :=
  impliedEndNames ++ ["caption", "colgroup", "tbody", "td", "tfoot", "th", "thead", "tr"]

/-- Elements of a table that cannot hold anything but parts of the table. -/
def tableStructureNames : List String := ["table", "tbody", "tfoot", "thead", "tr"]

/-- Elements of which one has to be in scope before a part of the table outside
    rows ends the section that is open. A `thead` alone does not count: as the
    content of a template it stays open. -/
def sectionHolderNames : List String := ["table", "tbody", "tfoot"]

def tablePartNames : List String :=
  ["caption", "col", "colgroup", "tbody", "td", "tfoot", "th", "thead", "tr"]

/-! ## Foreign elements -/

/-- HTML elements that cannot stand inside foreign ones. -/
def breakoutNames : List String :=
  ["b", "big", "blockquote", "body", "br", "center", "code", "dd", "div", "dl", "dt", "em",
   "embed", "h1", "h2", "h3", "h4", "h5", "h6", "head", "hr", "i", "img", "li", "listing", "menu",
   "meta", "nobr", "ol", "p", "pre", "ruby", "s", "small", "span", "strong", "strike", "sub",
   "sup", "table", "tt", "u", "ul", "var"]

/-- MathML elements that hold HTML text. -/
def mathTextNames : List String := ["mi", "mo", "mn", "ms", "mtext"]

/-- SVG elements that hold HTML. -/
def svgHtmlNames : List String := ["foreignObject", "desc", "title"]

/-- SVG elements whose names have capitals. -/
def svgElementSpellings : List String :=
  ["altGlyph", "altGlyphDef", "altGlyphItem", "animateColor", "animateMotion", "animateTransform",
   "clipPath", "feBlend", "feColorMatrix", "feComponentTransfer", "feComposite",
   "feConvolveMatrix", "feDiffuseLighting", "feDisplacementMap", "feDistantLight", "feDropShadow",
   "feFlood", "feFuncA", "feFuncB", "feFuncG", "feFuncR", "feGaussianBlur", "feImage", "feMerge",
   "feMergeNode", "feMorphology", "feOffset", "fePointLight", "feSpecularLighting", "feSpotLight",
   "feTile", "feTurbulence", "foreignObject", "glyphRef", "linearGradient", "radialGradient",
   "textPath"]

/-- SVG attributes whose names have capitals. -/
def svgAttributeSpellings : List String :=
  ["attributeName", "attributeType", "baseFrequency", "baseProfile", "calcMode", "clipPathUnits",
   "diffuseConstant", "edgeMode", "filterUnits", "glyphRef", "gradientTransform", "gradientUnits",
   "kernelMatrix", "kernelUnitLength", "keyPoints", "keySplines", "keyTimes", "lengthAdjust",
   "limitingConeAngle", "markerHeight", "markerUnits", "markerWidth", "maskContentUnits",
   "maskUnits", "numOctaves", "pathLength", "patternContentUnits", "patternTransform",
   "patternUnits", "pointsAtX", "pointsAtY", "pointsAtZ", "preserveAlpha", "preserveAspectRatio",
   "primitiveUnits", "refX", "refY", "repeatCount", "repeatDur", "requiredExtensions",
   "requiredFeatures", "specularConstant", "specularExponent", "spreadMethod", "startOffset",
   "stdDeviation", "stitchTiles", "surfaceScale", "systemLanguage", "tableValues", "targetX",
   "targetY", "textLength", "viewBox", "viewTarget", "xChannelSelector", "yChannelSelector",
   "zoomAndPan"]

/-- MathML attributes whose names have capitals. -/
def mathAttributeSpellings : List String := ["definitionURL"]

/-- The spelling with capitals of a name in lower case, if there is one. -/
def respell (spellings : List String) (name : String) : String :=
  (spellings.find? fun spelling => asciiLower spelling == name).getD name

def xlinkUri : String := vocabularyUri "1999/xlink"
def xmlUri : String := vocabularyUri "XML/1998/namespace"
def xmlnsUri : String := vocabularyUri "2000/xmlns/"

/-- Attributes that have a namespace inside foreign elements, with their prefix
    and the rest of the name. The one that declares the default namespace has an
    empty prefix. -/
def foreignAttributes : List (String × String × String × String) :=
  [("xlink:actuate", xlinkUri, "xlink", "actuate"), ("xlink:arcrole", xlinkUri, "xlink", "arcrole"),
   ("xlink:href", xlinkUri, "xlink", "href"), ("xlink:role", xlinkUri, "xlink", "role"),
   ("xlink:show", xlinkUri, "xlink", "show"), ("xlink:title", xlinkUri, "xlink", "title"),
   ("xlink:type", xlinkUri, "xlink", "type"), ("xml:lang", xmlUri, "xml", "lang"),
   ("xml:space", xmlUri, "xml", "space"), ("xmlns", xmlnsUri, "", "xmlns"),
   ("xmlns:xlink", xmlnsUri, "xmlns", "xlink")]

/-- An attribute of a foreign element. -/
def foreignAttribute (spellings : List String) (name value : String) : Attribute :=
  match foreignAttributes.lookup name with
  | some (ns, namePrefix, rest) => ⟨ns, some namePrefix, rest, value⟩
  | none => .plain (respell spellings name) value

/-- The attributes of a tag as those of an element in a namespace. -/
def elementAttributes (ns : Namespace) (tag : Tag) : List Attribute :=
  tag.attributes.map fun (name, value) =>
    match ns with
    | .html => .plain name value
    | .svg => foreignAttribute svgAttributeSpellings name value
    | .mathml => foreignAttribute mathAttributeSpellings name value

/-! ## Document types -/

/-- Starts of public identifiers of document types from before the standard. -/
def oldPublicStarts : List String :=
  ["-//advasoft ltd//dtd html 3.0 aswedit + extensions//",
   "-//as//dtd html 3.0 aswedit + extensions//", "-//ietf//dtd html 2.0 level 1//",
   "-//ietf//dtd html 2.0 level 2//", "-//ietf//dtd html 2.0 strict level 1//",
   "-//ietf//dtd html 2.0 strict level 2//", "-//ietf//dtd html 2.0 strict//",
   "-//ietf//dtd html 2.0//", "-//ietf//dtd html 2.1e//", "-//ietf//dtd html 3.0//",
   "-//ietf//dtd html 3.2 final//", "-//ietf//dtd html 3.2//", "-//ietf//dtd html 3//",
   "-//ietf//dtd html level 0//", "-//ietf//dtd html level 1//", "-//ietf//dtd html level 2//",
   "-//ietf//dtd html level 3//", "-//ietf//dtd html strict level 0//",
   "-//ietf//dtd html strict level 1//", "-//ietf//dtd html strict level 2//",
   "-//ietf//dtd html strict level 3//", "-//ietf//dtd html strict//", "-//ietf//dtd html//",
   "-//metrius//dtd metrius presentational//",
   "-//microsoft//dtd internet explorer 2.0 html strict//",
   "-//microsoft//dtd internet explorer 2.0 html//",
   "-//microsoft//dtd internet explorer 2.0 tables//",
   "-//microsoft//dtd internet explorer 3.0 html strict//",
   "-//microsoft//dtd internet explorer 3.0 html//",
   "-//microsoft//dtd internet explorer 3.0 tables//", "-//netscape comm. corp.//dtd html//",
   "-//netscape comm. corp.//dtd strict html//", "-//o'reilly and associates//dtd html 2.0//",
   "-//o'reilly and associates//dtd html extended 1.0//",
   "-//o'reilly and associates//dtd html extended relaxed 1.0//",
   "-//softquad software//dtd hotmetal pro 6.0::19990601::extensions to html 4.0//",
   "-//softquad//dtd hotmetal pro 4.0::19971010::extensions to html 4.0//",
   "-//spyglass//dtd html 2.0 extended//", "-//sq//dtd html 2.0 hotmetal + extensions//",
   "-//sun microsystems corp.//dtd hotjava html//",
   "-//sun microsystems corp.//dtd hotjava strict html//", "-//w3c//dtd html 3 1995-03-24//",
   "-//w3c//dtd html 3.2 draft//", "-//w3c//dtd html 3.2 final//", "-//w3c//dtd html 3.2//",
   "-//w3c//dtd html 3.2s draft//", "-//w3c//dtd html 4.0 frameset//",
   "-//w3c//dtd html 4.0 transitional//", "-//w3c//dtd html experimental 19960712//",
   "-//w3c//dtd html experimental 970421//", "-//w3c//dtd w3 html//", "-//w3o//dtd w3 html 3.0//",
   "-//webtechs//dtd mozilla html 2.0//", "-//webtechs//dtd mozilla html//"]

/-- Whole public identifiers of the same age. -/
def oldPublicIdentifiers : List String :=
  ["-//w3o//dtd w3 html strict 3.0//en//", "-/w3c/dtd html 4.0 transitional/en", "html"]

/-- The system identifier of an early vendor variant. -/
def oldSystemIdentifier : String :=
  "http:" ++ "//www.ibm.com/data/dtd/v11/ibmxhtml1-transitional.dtd"

/-- Starts of public identifiers that count as old without a system identifier. -/
def halfOldPublicStarts : List String :=
  ["-//w3c//dtd html 4.01 frameset//", "-//w3c//dtd html 4.01 transitional//"]

/-- Whether a declaration asks for the rules from before the standard, as a
    document without declaration does. -/
def Declaration.isOld (doctype : Declaration) : Bool :=
  let publicId := asciiLower (doctype.publicId.getD "")
  let startsWithOneOf (starts : List String) :=
    starts.any fun start => start.toList.isPrefixOf publicId.toList
  doctype.broken || doctype.name != some "html" ||
    oldPublicIdentifiers.contains publicId || startsWithOneOf oldPublicStarts ||
    doctype.systemId.any (asciiLower · == oldSystemIdentifier) ||
    (doctype.systemId.isNone && startsWithOneOf halfOldPublicStarts)

end HtmlTemplate.Html
