namespace DocGraph

/-!
# Character entities

Some characters are written as empty elements, such as `<euro/>` for the euro sign.

* `characterEntities` — the tags and the text that each stands for, in the order of the schema;
* `characterEntity?` — the text of a tag.
-/

/-- Tags of characters, with the text that each stands for. -/
def characterEntities : List (String × String) :=
  [("nonbreakablespace", "\u00a0"), ("iexcl", "¡"), ("cent", "¢"), ("pound", "£"),
   ("curren", "¤"), ("yen", "¥"), ("brvbar", "¦"), ("sect", "§"), ("umlaut", "¨"), ("copy", "©"),
   ("ordf", "ª"), ("laquo", "«"), ("not", "¬"), ("shy", "\u00ad"), ("registered", "®"),
   ("macr", "¯"), ("deg", "°"), ("plusmn", "±"), ("sup2", "²"), ("sup3", "³"), ("acute", "´"),
   ("micro", "µ"), ("middot", "·"), ("cedil", "¸"), ("sup1", "¹"), ("ordm", "º"), ("raquo", "»"),
   ("frac14", "¼"), ("frac12", "½"), ("frac34", "¾"), ("iquest", "¿"), ("times", "×"),
   ("divide", "÷"), ("szlig", "ß"), ("bull", "•"), ("hellip", "…"), ("prime", "′"),
   ("Prime", "″"), ("oline", "‾"), ("frasl", "⁄"), ("trademark", "™"), ("larr", "←"),
   ("uarr", "↑"), ("rarr", "→"), ("darr", "↓"), ("harr", "↔"), ("lArr", "⇐"), ("rArr", "⇒"),
   ("hArr", "⇔"), ("minus", "−"), ("infin", "∞"), ("ne", "≠"), ("le", "≤"), ("ge", "≥"),
   ("ensp", "\u2002"), ("emsp", "\u2003"), ("thinsp", "\u2009"), ("zwnj", "\u200c"),
   ("zwj", "\u200d"), ("lrm", "\u200e"), ("rlm", "\u200f"), ("ndash", "–"), ("mdash", "—"),
   ("lsquo", "‘"), ("rsquo", "’"), ("sbquo", "‚"), ("ldquo", "“"), ("rdquo", "”"), ("bdquo", "„"),
   ("dagger", "†"), ("Dagger", "‡"), ("permil", "‰"), ("lsaquo", "‹"), ("rsaquo", "›"),
   ("euro", "€"), ("tm", "™")]

/-- The text that a tag stands for. -/
def characterEntity? (tag : String) : Option String := characterEntities.lookup tag

end DocGraph
