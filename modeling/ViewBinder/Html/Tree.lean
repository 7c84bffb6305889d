-- Generated markup as a tree. `render` is the only place where a tree becomes text: text and
-- attribute values are escaped there and nowhere else, and raw pieces pass as they are. Some names
-- are known, and elements of some names never have content.
import ViewBinder.Html.Escape
import ViewBinder.Text.CaseMap

namespace ViewBinder

/-! ## Names -/

namespace Html

/-- The known names, separated by blanks. -/
def nameLines : List String :=
  ["a abbr accept accept-charset accesskey acronym action address align allowfullscreen",
   "allowpaymentrequest allowusermedia alt annotation annotation-xml applet area article as",
   "aside async audio autocomplete autofocus autoplay b base basefont bdi bdo bgsound big",
   "blink blockquote body br button canvas caption center challenge charset checked cite class",
   "code col colgroup color cols colspan command content contenteditable contextmenu controls",
   "coords crossorigin data datalist datetime dd default defer del desc details dfn dialog dir",
   "dirname disabled div dl download draggable dropzone dt em embed enctype face fieldset",
   "figcaption figure font footer for foreignObject foreignobject form formaction formenctype",
   "formmethod formnovalidate formtarget frame frameset h1 h2 h3 h4 h5 h6 head header headers",
   "height hgroup hidden high hr href hreflang html http-equiv i icon id iframe image img",
   "input inputmode ins integrity is isindex ismap itemid itemprop itemref itemscope itemtype",
   "kbd keygen keytype kind label lang legend li link list listing loop low main malignmark",
   "manifest map mark marquee math max maxlength media mediagroup menu menuitem meta meter",
   "method mglyph mi min minlength mn mo ms mtext multiple muted name nav nobr noembed",
   "noframes nomodule nonce noscript novalidate object ol onabort onafterprint onautocomplete",
   "onautocompleteerror onauxclick onbeforeprint onbeforeunload onblur oncancel oncanplay",
   "oncanplaythrough onchange onclick onclose oncontextmenu oncopy oncuechange oncut",
   "ondblclick ondrag ondragend ondragenter ondragexit ondragleave ondragover ondragstart",
   "ondrop ondurationchange onemptied onended onerror onfocus onhashchange oninput oninvalid",
   "onkeydown onkeypress onkeyup onlanguagechange onload onloadeddata onloadedmetadata",
   "onloadend onloadstart onmessage onmessageerror onmousedown onmouseenter onmouseleave",
   "onmousemove onmouseout onmouseover onmouseup onmousewheel onoffline ononline onpagehide",
   "onpageshow onpaste onpause onplay onplaying onpopstate onprogress onratechange",
   "onrejectionhandled onreset onresize onscroll onsecuritypolicyviolation onseeked onseeking",
   "onselect onshow onsort onstalled onstorage onsubmit onsuspend ontimeupdate ontoggle",
   "onunhandledrejection onunload onvolumechange onwaiting onwheel open optgroup optimum",
   "option output p param pattern picture ping placeholder plaintext playsinline poster pre",
   "preload progress prompt public q radiogroup rb readonly referrerpolicy rel required",
   "reversed rows rowspan rp rt rtc ruby s samp sandbox scope scoped script seamless section",
   "select selected shape size sizes slot small sortable sorted source spacer span spellcheck",
   "src srcdoc srclang srcset start step strike strong style sub summary sup svg system",
   "tabindex table target tbody td template textarea tfoot th thead time title tr track",
   "translate tt type typemustmatch u ul updateviacache usemap value var video wbr width",
   "workertype wrap xmp"]

/-- The names of elements and attributes that are known. -/
def knownNames : List Text :=
  nameLines.flatMap fun line => Text.splitOn ' '.toUInt8 (Text.ofString line)

/-- A name that is known, whatever its case. -/
def isKnownName (name : Text) : Bool := knownNames.contains (Text.toLower name)

/-- Elements without content and closing tag. -/
def voidNames : List Text :=
  ["area", "base", "br", "col", "command", "embed", "hr", "img", "input", "keygen", "link",
   "meta", "param", "source", "track", "wbr"]

/-- An element without content and closing tag. -/
def isVoid (name : Text) : Bool := voidNames.contains name

end Html

/-! ## Trees -/

/-- A piece of generated markup. -/
inductive Html where
  /-- Markup that is written as it is. -/
  | raw (t : Text)
  /-- Text that is escaped. -/
  | text (t : Text)
  | element (name : Text) (attributes : List (Text × Text)) (children : List Html)
  deriving Repr

namespace Html

/-- An attribute of an opening tag. -/
def renderAttribute (a : Text × Text) : Text := " " ++ a.1 ++ "=\"" ++ escape a.2 ++ "\""

mutual

/-- The markup as it is written. Elements that have no content lose what they were given. -/
def render : Html → Text
  | raw t => t
  | text t => escape t
  | element name attributes children =>
    let opening := "<" ++ name ++ attributes.flatMap renderAttribute ++ ">"
    if isVoid name then opening else opening ++ renderAll children ++ "</" ++ name ++ ">"

/-- Pieces of markup one after the other. -/
def renderAll : List Html → Text
  | [] => []
  | piece :: rest => render piece ++ renderAll rest

end

end Html

end ViewBinder
