import MotifMatch.Session

namespace MotifMatch.Text

def entities : List (String × Nat) := [
 ("AElig",198),("Aacute",193),("Acirc",194),("Agrave",192),("Alpha",913),("Aring",197),
 ("Atilde",195),("Auml",196),("Beta",914),("Ccedil",199),("Chi",935),("Dagger",8225),
 ("Delta",916),("ETH",208),("Eacute",201),("Ecirc",202),("Egrave",200),("Epsilon",917),
 ("Eta",919),("Euml",203),("Gamma",915),("Iacute",205),("Icirc",206),("Igrave",204),
 ("Iota",921),("Iuml",207),("Kappa",922),("Lambda",923),("Mu",924),("Ntilde",209),("Nu",925),
 ("OElig",338),("Oacute",211),("Ocirc",212),("Ograve",210),("Omega",937),("Omicron",927),
 ("Oslash",216),("Otilde",213),("Ouml",214),("Phi",934),("Pi",928),("Prime",8243),("Psi",936),
 ("Rho",929),("Scaron",352),("Sigma",931),("THORN",222),("Tau",932),("Theta",920),
 ("Uacute",218),("Ucirc",219),("Ugrave",217),("Upsilon",933),("Uuml",220),("Xi",926),
 ("Yacute",221),("Yuml",376),("Zeta",918),("aacute",225),("acirc",226),("acute",180),
 ("aelig",230),("agrave",224),("alefsym",8501),("alpha",945),("amp",38),("and",8743),
 ("ang",8736),("aring",229),("asymp",8776),("atilde",227),("auml",228),("bdquo",8222),
 ("beta",946),("brvbar",166),("bull",8226),("cap",8745),("ccedil",231),("cedil",184),
 ("cent",162),("chi",967),("circ",710),("clubs",9827),("cong",8773),("copy",169),
 ("crarr",8629),("cup",8746),("curren",164),("dArr",8659),("dagger",8224),("darr",8595),
 ("deg",176),("delta",948),("diams",9830),("divide",247),("eacute",233),("ecirc",234),
 ("egrave",232),("empty",8709),("emsp",8195),("ensp",8194),("epsilon",949),("equiv",8801),
 ("eta",951),("eth",240),("euml",235),("euro",8364),("exist",8707),("fnof",402),
 ("forall",8704),("frac12",189),("frac14",188),("frac34",190),("frasl",8260),("gamma",947),
 ("ge",8805),("gt",62),("hArr",8660),("harr",8596),("hearts",9829),("hellip",8230),
 ("iacute",237),("icirc",238),("iexcl",161),("igrave",236),("image",8465),("infin",8734),
 ("int",8747),("iota",953),("iquest",191),("isin",8712),("iuml",239),("kappa",954),
 ("lArr",8656),("lambda",955),("lang",9001),("laquo",171),("larr",8592),("lceil",8968),
 ("ldquo",8220),("le",8804),("lfloor",8970),("lowast",8727),("loz",9674),("lrm",8206),
 ("lsaquo",8249),("lsquo",8216),("lt",60),("macr",175),("mdash",8212),("micro",181),
 ("middot",183),("minus",8722),("mu",956),("nabla",8711),("nbsp",160),("ndash",8211),
 ("ne",8800),("ni",8715),("not",172),("notin",8713),("nsub",8836),("ntilde",241),("nu",957),
 ("oacute",243),("ocirc",244),("oelig",339),("ograve",242),("oline",8254),("omega",969),
 ("omicron",959),("oplus",8853),("or",8744),("ordf",170),("ordm",186),("oslash",248),
 ("otilde",245),("otimes",8855),("ouml",246),("para",182),("part",8706),("permil",8240),
 ("perp",8869),("phi",966),("pi",960),("piv",982),("plusmn",177),("pound",163),("prime",8242),
 ("prod",8719),("prop",8733),("psi",968),("quot",34),("rArr",8658),("radic",8730),
 ("rang",9002),("raquo",187),("rarr",8594),("rceil",8969),("rdquo",8221),("real",8476),
 ("reg",174),("rfloor",8971),("rho",961),("rlm",8207),("rsaquo",8250),("rsquo",8217),
 ("sbquo",8218),("scaron",353),("sdot",8901),("sect",167),("shy",173),("sigma",963),
 ("sigmaf",962),("sim",8764),("spades",9824),("sub",8834),("sube",8838),("sum",8721),
 ("sup",8835),("sup1",185),("sup2",178),("sup3",179),("supe",8839),("szlig",223),("tau",964),
 ("there4",8756),("theta",952),("thetasym",977),("thinsp",8201),("thorn",254),("tilde",732),
 ("times",215),("trade",8482),("uArr",8657),("uacute",250),("uarr",8593),("ucirc",251),
 ("ugrave",249),("uml",168),("upsih",978),("upsilon",965),("uuml",252),("weierp",8472),
 ("xi",958),("yacute",253),("yen",165),("yuml",255),("zeta",950),("zwj",8205),("zwnj",8204)]

def codePointOf? (name : String) : Option Nat := (entities.find? fun e => e.1 == name).map Prod.snd

end MotifMatch.Text

namespace MotifMatch.Gml
open String

def isPlain (c : Char) : Bool := ' ' ≤ c && c ≤ '~' && c != '&' && c != '"'

def reference (c : Char) : List Char := '&' :: '#' :: (toString c.toNat).toList ++ [';']

def encode (s : String) : String :=
 ofList (s.toList.flatMap fun c => if isPlain c then [c] else reference c)

def isHexDigit (c : Char) : Bool := c.isDigit || ('a' ≤ c && c ≤ 'f') || ('A' ≤ c && c ≤ 'F')

def hexNumber (cs : List Char) : Nat :=
 cs.foldl (fun acc c => acc * 16 +
  (if c.isDigit then c.toNat - 48 else if 'a' ≤ c then c.toNat - 87 else c.toNat - 55)) 0

def charOf? (code : Nat) : Option Char := if code.isValidChar then some (Char.ofNat code) else none

def referenced? : List Char → Option Char
 | '#' :: 'x' :: ds => if !ds.isEmpty && ds.all isHexDigit then charOf? (hexNumber ds) else none
 | '#' :: ds =>
  if !ds.isEmpty && ds.all Char.isDigit then charOf? (Text.wholeDigits? ds |>.getD 0) else none
 | name => (Text.codePointOf? (ofList name)).bind charOf?

def decodeChars : Nat → List Char → List Char
 | 0, cs => cs
 | _ + 1, [] => []
 | n + 1, '&' :: rest =>
  let body := rest.takeWhile fun c => c.isAlphanum || c = '#'
  match referenced? body, rest.drop body.length with
  | some c, ';' :: rest => c :: decodeChars n rest
  | _, _ => '&' :: decodeChars n rest
 | n + 1, c :: rest => c :: decodeChars n rest

def decode (s : String) : String := ofList (decodeChars s.length s.toList)

structure Output where
 lines : List String
 failure : Option Error := none

namespace Output

def line (s : String) : Output := ⟨[s],none⟩

def fail : Output := ⟨[],some .malformedGraph⟩

def andThen (a b : Output) : Output :=
 match a.failure with
 | some _ => a
 | none => ⟨a.lines ++ b.lines,b.failure⟩

def all (os : List Output) : Output := os.foldl andThen ⟨[],none⟩

end Output

def isKeyChar (c : Char) : Bool := c.isAlphanum || c = '_'

def isKey (s : String) : Bool :=
 match s.toList with
 | [] => false
 | c :: rest =>
  c.isAlpha && (rest.all isKeyChar || (rest.getLast? == some '\n' && rest.dropLast.all isKeyChar))

def realText (x : Float) : String :=
 let text := (Value.float x).text.toList.map Char.toUpper
 if text = "INF".toList then "+INF"
 else
  let mantissa := text.takeWhile fun c => c != 'E'
  let rest := text.drop mantissa.length
  if rest.isEmpty || mantissa.contains '.' then String.ofList text
  else String.ofList (mantissa ++ '.' :: rest)

def inQuotes (s : String) : String := "\"" ++ s ++ "\""

def fits (i : Int) : Bool := -(Int.pow 2 31) ≤ i && i < Int.pow 2 31

def atomText? (isLabel : Bool) : Value → Option String
 | .int i => some (if isLabel || !fits i then inQuotes (toString i) else toString i)
 | .bool b => some (if isLabel then inQuotes (Value.bool b).text else if b then "1" else "0")
 | .float x => some (if isLabel then inQuotes (realText x) else realText x)
 | .str s => some (inQuotes (encode s))
 | _ => none

def listMark : String := "_networkx_list_start"

mutual

def field (indent : String) (inList : Bool) (key : String) : Value → Output
 | .dict kvs =>
  if isKey key then
   (Output.line (indent ++ key ++ " [")).andThen
    ((entries (indent ++ "  ") kvs).andThen (.line (indent ++ "]")))
  else .fail
 | .list xs => if isKey key && !inList && key != "label" then elements indent key xs else .fail
 | .tuple xs => if isKey key && !inList && key != "label" then elements indent key xs else .fail
 | v =>
  match isKey key, atomText? (key == "label") v with
  | true, some text => .line (indent ++ key ++ " " ++ text)
  | _, _ => .fail

def elements (indent key : String) : List Value → Output
 | [] => .fail
 | [x] => (Output.line (indent ++ key ++ " " ++ inQuotes listMark)).andThen (field indent true key x)
 | x :: y :: rest => (field indent true key x).andThen (moreElements indent key (y :: rest))

def moreElements (indent key : String) : List Value → Output
 | [] => ⟨[],none⟩
 | x :: rest => (field indent true key x).andThen (moreElements indent key rest)

def entries (indent : String) : List (Value × Value) → Output
 | [] => ⟨[],none⟩
 | (.str k,v) :: rest => (field indent false k v).andThen (entries indent rest)
 | _ :: _ => .fail

end

def attributes (reserved : List String) (a : Attrs) : Output :=
 .all (a.entries.map fun e =>
  if reserved.contains e.1 then (if isKey e.1 then ⟨[],none⟩ else .fail)
  else field "    " false e.1 e.2)

def nodeBlock (e : (NodeId × Attrs) × Nat) : Output :=
 .all [.line "  node [",.line s!"    id {e.2}",field "    " false "label" e.1.1.toValue,
  attributes ["id","label"] e.1.2,.line "  ]"]

def edgeBlock (multi : Bool) (place : NodeId → Nat) (e : Edge) : Output :=
 .all [.line "  edge [",.line s!"    source {place e.source}",.line s!"    target {place e.target}",
  if multi then field "    " false "key" e.key else ⟨[],none⟩,
  attributes (if multi then ["source","target","key"] else ["source","target"]) e.attrs,.line "  ]"]

def render (g : Graph) : Output :=
 let start := "graph [" :: (if g.directed then ["  directed 1"] else []) ++
  (if g.multi then ["  multigraph 1"] else [])
 .all ([⟨start,none⟩] ++ g.nodes.entries.zipIdx.map nodeBlock ++
  g.edgeList.map (edgeBlock g.multi fun n => g.ids.idxOf n) ++ [.line "]"])

def write (path : String) (g : Graph) : Run Unit := do
 let out := render g
 Run.writeText path (join (out.lines.map fun l => l ++ "\n"))
 match out.failure with
 | some e => throw e
 | none => return

end MotifMatch.Gml
