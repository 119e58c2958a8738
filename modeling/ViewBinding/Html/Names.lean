/-!
# Names of elements

The vocabularies that an element can belong to, the sets of element names that the rules of tree
construction speak of, and the spelling of foreign names.
-/

namespace ViewBinding.Html

/-- The vocabulary of an element, by which a name can mean different things: `title` names an element of
each of the first two. -/
inductive Vocabulary where
  /-- Ordinary elements. -/
  | html
  /-- Drawings, inside `svg`. -/
  | svg
  /-- Formulas, inside `math`. -/
  | mathml
deriving DecidableEq, Repr, Inhabited

/-- The name of an element in its `Vocabulary`. -/
structure ElementName where
  vocabulary : Vocabulary
  name : String
deriving DecidableEq, Repr, Inhabited

namespace ElementName

/-- Whether the element is an ordinary one of the given name. -/
def isHtml (e : ElementName) (name : String) : Bool :=
  e.vocabulary == .html && e.name == name

/-- Whether the element is an ordinary one of one of the given names. -/
def isIn (e : ElementName) (names : List String) : Bool :=
  e.vocabulary == .html && names.contains e.name

/-- Whether the element is a formula element that holds text, such as `mtext`. -/
def isTextPoint (e : ElementName) : Bool :=
  e.vocabulary == .mathml && ["mi", "mo", "mn", "ms", "mtext"].contains e.name

/-- Whether the element is a drawing element that holds markup, such as `foreignObject`. -/
def isMarkupPoint (e : ElementName) : Bool :=
  e.vocabulary == .svg && ["foreignObject", "desc", "title"].contains e.name

end ElementName

/-! ## Sets of names -/

/-- The elements that end the search for a closing tag's element (`Construction.closeOther`). -/
def specialNames : List String :=
  ["address", "applet", "area", "article", "aside", "base", "basefont", "bgsound", "blockquote",
    "body", "br", "button", "caption", "center", "col", "colgroup", "dd", "details", "dir", "div",
    "dl", "dt", "embed", "fieldset", "figcaption", "figure", "footer", "form", "frame", "frameset",
    "h1", "h2", "h3", "h4", "h5", "h6", "head", "header", "hgroup", "hr", "html", "iframe", "img",
    "input", "isindex", "li", "link", "listing", "main", "marquee", "menu", "meta", "nav",
    "noembed", "noframes", "noscript", "object", "ol", "p", "param", "plaintext", "pre", "script",
    "section", "select", "source", "style", "summary", "table", "tbody", "td", "template",
    "textarea", "tfoot", "th", "thead", "title", "tr", "track", "ul", "wbr", "xmp"]

/-- The elements whose end may be left out (`Construction.closeImplied`). -/
def impliedEndNames : List String :=
  ["dd", "dt", "li", "option", "optgroup", "p", "rb", "rp", "rt", "rtc"]

/-- The elements whose end may be left out where a `template` ends. -/
def templateEndNames : List String :=
  impliedEndNames ++
    ["caption", "colgroup", "tbody", "td", "tfoot", "th", "thead", "tr"]

/-- The ordinary elements at which the search for an open element stops (`Construction.inScope`). -/
def scopeNames : List String :=
  ["applet", "caption", "html", "table", "td", "th", "marquee", "object", "template"]

/-- The elements at which the search for an open part of a table stops (`Construction.inTableScope`). -/
def tableScopeNames : List String :=
  ["html", "table", "template"]

/-- The headings, `h1` to `h6`. -/
def headingNames : List String :=
  ["h1", "h2", "h3", "h4", "h5", "h6"]

/-- The elements that close a paragraph when they open, such as `div`. -/
def blockNames : List String :=
  ["address", "article", "aside", "blockquote", "center", "details", "dialog", "dir", "div", "dl",
    "fieldset", "figcaption", "figure", "footer", "header", "hgroup", "main", "menu", "nav", "ol",
    "p", "search", "section", "summary", "ul"]

/-- The elements whose closing tag closes everything inside them, such as `section`. -/
def containerNames : List String :=
  ["address", "article", "aside", "blockquote", "button", "center", "details", "dialog", "dir",
    "div", "dl", "fieldset", "figcaption", "figure", "footer", "header", "hgroup", "listing",
    "main", "menu", "nav", "ol", "pre", "search", "section", "summary", "ul"]

/-- The elements that format text across the bounds of others, apart from links: `b`, `i` and the like. -/
def formattingNames : List String :=
  ["b", "big", "code", "em", "font", "i", "s", "small", "strike", "strong", "tt", "u"]

/-- The elements without content that stand in a line of text, such as `br`. -/
def inlineVoidNames : List String :=
  ["area", "br", "embed", "img", "keygen", "wbr", "input"]

/-- The elements without content that belong to a head, such as `meta`. -/
def headVoidNames : List String :=
  ["base", "basefont", "bgsound", "link", "meta"]

/-- The elements whose tags count the same anywhere in a body as in a head, such as `script`. -/
def headNames : List String :=
  headVoidNames ++ ["noframes", "script", "style", "template", "title"]

/-- The parts of a table, from `caption` to `tr`. -/
def tablePartNames : List String :=
  ["caption", "col", "colgroup", "tbody", "td", "tfoot", "th", "thead", "tr"]

/-- The groups of rows: `tbody`, `tfoot` and `thead`. -/
def rowGroupNames : List String :=
  ["tbody", "tfoot", "thead"]

/-- The elements in which text and stray elements have no place; these go in front of the table
(`Construction.fosterPlace`). -/
def fosteringNames : List String :=
  ["table", "tbody", "tfoot", "thead", "tr"]

/-- The elements that have no place in a drawing or a formula: their tags end it (`Construction.breakOut`).
-/
def breakingNames : List String :=
  ["b", "big", "blockquote", "body", "br", "center", "code", "dd", "div", "dl", "dt", "em", "embed",
    "h1", "h2", "h3", "h4", "h5", "h6", "head", "hr", "i", "img", "li", "listing", "menu", "meta",
    "nobr", "ol", "p", "pre", "ruby", "s", "small", "span", "strong", "strike", "sub", "sup",
    "table", "tt", "u", "ul", "var"]

/-- The attributes that make a `font` element one without a place in a drawing or a formula. -/
def breakingFontAttributes : List String :=
  ["color", "face", "size"]

/-! ## Spelling of foreign names -/

/-- The drawing elements that are not written in lower case, such as `foreignObject`. -/
def svgElementNames : List String :=
  ["altGlyph", "altGlyphDef", "altGlyphItem", "animateColor", "animateMotion", "animateTransform",
    "clipPath", "feBlend", "feColorMatrix", "feComponentTransfer", "feComposite",
    "feConvolveMatrix", "feDiffuseLighting", "feDisplacementMap", "feDistantLight", "feDropShadow",
    "feFlood", "feFuncA", "feFuncB", "feFuncG", "feFuncR", "feGaussianBlur", "feImage", "feMerge",
    "feMergeNode", "feMorphology", "feOffset", "fePointLight", "feSpecularLighting", "feSpotLight",
    "feTile", "feTurbulence", "foreignObject", "glyphRef", "linearGradient", "radialGradient",
    "textPath"]

/-- The attributes of drawings that are not written in lower case, such as `viewBox`. -/
def svgAttributeNames : List String :=
  ["attributeName", "attributeType", "baseFrequency", "baseProfile", "calcMode", "clipPathUnits",
    "diffuseConstant", "edgeMode", "filterUnits", "glyphRef", "gradientTransform", "gradientUnits",
    "kernelMatrix", "kernelUnitLength", "keyPoints", "keySplines", "keyTimes", "lengthAdjust",
    "limitingConeAngle", "markerHeight", "markerUnits", "markerWidth", "maskContentUnits",
    "maskUnits", "numOctaves", "pathLength", "patternContentUnits", "patternTransform",
    "patternUnits", "pointsAtX", "pointsAtY", "pointsAtZ", "preserveAlpha", "preserveAspectRatio",
    "primitiveUnits", "refX", "refY", "repeatCount", "repeatDur", "requiredExtensions",
    "requiredFeatures", "specularConstant", "specularExponent", "spreadMethod", "startOffset",
    "stdDeviation", "stitchTiles", "surfaceScale", "systemLanguage", "tableValues", "targetX",
    "targetY", "textLength", "viewBox", "viewTarget", "xChannelSelector", "yChannelSelector",
    "zoomAndPan"]

/-- The attributes of formulas that are not written in lower case. -/
def mathmlAttributeNames : List String :=
  ["definitionURL"]

/-- The names that attributes with a prefix of their own have without it: `xlink:href` becomes `href`. -/
def unprefixedNames : List (String × String) :=
  [("xlink:actuate", "actuate"), ("xlink:arcrole", "arcrole"), ("xlink:href", "href"),
    ("xlink:role", "role"), ("xlink:show", "show"), ("xlink:title", "title"),
    ("xlink:type", "type"), ("xml:lang", "lang"), ("xml:space", "space"), ("xmlns:xlink", "xlink")]

/-- A name with its letters in lower case. -/
def lowerName (name : String) : String :=
  String.ofList (name.toList.map Char.toLower)

/-- The name with the spelling that one of the given names has (`lowerName` decides which). -/
def respell (spellings : List String) (name : String) : String :=
  (spellings.find? fun s => lowerName s = name).getD name

/-- The name of an element opened inside a vocabulary (`svgElementNames`). -/
def Vocabulary.elementName (v : Vocabulary) (name : String) : String :=
  match v with
  | .svg => respell svgElementNames name
  | _ => name

/-- The name of an attribute of an element of a vocabulary, without its prefix (`unprefixedNames`). -/
def Vocabulary.attributeName (v : Vocabulary) (name : String) : String :=
  let spelled := match v with
    | .svg => respell svgAttributeNames name
    | .mathml => respell mathmlAttributeNames name
    | .html => name
  match unprefixedNames.find? fun entry => entry.1 = spelled with
  | some entry => if v = .html then spelled else entry.2
  | none => spelled

end ViewBinding.Html
