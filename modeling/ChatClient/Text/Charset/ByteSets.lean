/-!
# Character sets of one byte a character

In each of these sets the bytes below 0x80 are ASCII. A set is given by its names and by the
characters of its other bytes in order; a byte that stands for none has U+FFFD there.
-/

namespace ChatClient.Text.Charset

/-- The control characters from U+0080 to U+009F. -/
def controls : String := String.ofList ((List.range 32).map fun i => Char.ofNat (0x80 + i))

/-- The sets, each with its names. -/
def byteSets : List (List String × String) := [
  (["iso8859_2", "csisolatin2", "iso_8859_2", "iso_8859_2_1987", "iso_ir_101", "l2", "latin2"],
    controls ++ String.join [
      "\u00a0Ą˘Ł¤ĽŚ§¨ŠŞŤŹ\u00adŽŻ",
      "°ą˛ł´ľś\u02c7¸šşťź˝žż",
      "ŔÁÂĂÄĹĆÇČÉĘËĚÍÎĎ",
      "ĐŃŇÓÔŐÖ×ŘŮÚŰÜÝŢß",
      "ŕáâăäĺćçčéęëěíîď",
      "đńňóôőö÷řůúűüýţ˙"]),
  (["iso8859_3", "csisolatin3", "iso_8859_3", "iso_8859_3_1988", "iso_ir_109", "l3", "latin3"],
    controls ++ String.join [
      "\u00a0Ħ˘£¤\ufffdĤ§¨İŞĞĴ\u00ad\ufffdŻ",
      "°ħ\u00b2\u00b3´µĥ·¸ışğĵ\u00bd\ufffdż",
      "ÀÁÂ\ufffdÄĊĈÇÈÉÊËÌÍÎÏ",
      "\ufffdÑÒÓÔĠÖ×ĜÙÚÛÜŬŜß",
      "àáâ\ufffdäċĉçèéêëìíîï",
      "\ufffdñòóôġö÷ĝùúûüŭŝ˙"]),
  (["iso8859_4", "csisolatin4", "iso_8859_4", "iso_8859_4_1988", "iso_ir_110", "l4", "latin4"],
    controls ++ String.join [
      "\u00a0ĄĸŖ¤ĨĻ§¨ŠĒĢŦ\u00adŽ¯",
      "°ą˛ŗ´ĩļ\u02c7¸šēģŧŊžŋ",
      "ĀÁÂÃÄÅÆĮČÉĘËĖÍÎĪ",
      "ĐŅŌĶÔÕÖ×ØŲÚÛÜŨŪß",
      "āáâãäåæįčéęëėíîī",
      "đņōķôõö÷øųúûüũū˙"]),
  (["iso8859_5", "csisolatincyrillic", "cyrillic", "iso_8859_5", "iso_8859_5_1988", "iso_ir_144"],
    controls ++ String.join [
      "\u00a0ЁЂЃЄЅІЇЈЉЊЋЌ\u00adЎЏ",
      "АБВГДЕЖЗИЙКЛМНОП",
      "РСТУФХЦЧШЩЪЫЬЭЮЯ",
      "абвгдежзийклмноп",
      "рстуфхцчшщъыьэюя",
      "№ёђѓєѕіїјљњћќ§ўџ"]),
  (["iso8859_6", "arabic", "asmo_708", "csisolatinarabic", "ecma_114", "iso_8859_6",
    "iso_8859_6_1987", "iso_ir_127"],
    controls ++ String.join [
      "\u00a0\ufffd\ufffd\ufffd¤\ufffd\ufffd\ufffd\ufffd\ufffd\ufffd\ufffd،\u00ad\ufffd\ufffd",
      "\ufffd\ufffd\ufffd\ufffd\ufffd\ufffd\ufffd\ufffd\ufffd\ufffd\ufffd\u061b\ufffd\ufffd\ufffd\u061f",
      "\ufffd\u0621\u0622\u0623\u0624\u0625\u0626\u0627\u0628\u0629\u062a\u062b\u062c\u062d\u062e\u062f",
      "\u0630\u0631\u0632\u0633\u0634\u0635\u0636\u0637\u0638\u0639\u063a\ufffd\ufffd\ufffd\ufffd\ufffd",
      "\u0640\u0641\u0642\u0643\u0644\u0645\u0646\u0647\u0648\u0649\u064a\u064b\u064c\u064d\u064e\u064f",
      "\u0650\u0651\u0652\ufffd\ufffd\ufffd\ufffd\ufffd\ufffd\ufffd\ufffd\ufffd\ufffd\ufffd\ufffd\ufffd"]),
  (["iso8859_7", "csisolatingreek", "ecma_118", "elot_928", "greek", "greek8", "iso_8859_7",
    "iso_8859_7_1987", "iso_ir_126"],
    controls ++ String.join [
      "\u00a0‘’£€₯¦§¨©\u037a«¬\u00ad\ufffd―",
      "°±\u00b2\u00b3΄΅Ά·ΈΉΊ»Ό\u00bdΎΏ",
      "ΐΑΒΓΔΕΖΗΘΙΚΛΜΝΞΟ",
      "ΠΡ\ufffdΣΤΥΦΧΨΩΪΫάέήί",
      "ΰαβγδεζηθικλμνξο",
      "πρςστυφχψωϊϋόύώ\ufffd"]),
  (["iso8859_8", "csisolatinhebrew", "hebrew", "iso_8859_8", "iso_8859_8_1988", "iso_ir_138"],
    controls ++ String.join [
      "\u00a0\ufffd¢£¤¥¦§¨©×«¬\u00ad®¯",
      "°±\u00b2\u00b3´µ¶·¸\u00b9÷»\u00bc\u00bd\u00be\ufffd",
      "\ufffd\ufffd\ufffd\ufffd\ufffd\ufffd\ufffd\ufffd\ufffd\ufffd\ufffd\ufffd\ufffd\ufffd\ufffd\ufffd",
      "\ufffd\ufffd\ufffd\ufffd\ufffd\ufffd\ufffd\ufffd\ufffd\ufffd\ufffd\ufffd\ufffd\ufffd\ufffd‗",
      "\u05d0\u05d1\u05d2\u05d3\u05d4\u05d5\u05d6\u05d7\u05d8\u05d9\u05da\u05db\u05dc\u05dd\u05de\u05df",
      "\u05e0\u05e1\u05e2\u05e3\u05e4\u05e5\u05e6\u05e7\u05e8\u05e9\u05ea\ufffd\ufffd\u200e\u200f\ufffd"]),
  (["iso8859_9", "csisolatin5", "iso_8859_9", "iso_8859_9_1989", "iso_ir_148", "l5", "latin5"],
    controls ++ String.join [
      "\u00a0¡¢£¤¥¦§¨©ª«¬\u00ad®¯",
      "°±\u00b2\u00b3´µ¶·¸\u00b9º»\u00bc\u00bd\u00be¿",
      "ÀÁÂÃÄÅÆÇÈÉÊËÌÍÎÏ",
      "ĞÑÒÓÔÕÖ×ØÙÚÛÜİŞß",
      "àáâãäåæçèéêëìíîï",
      "ğñòóôõö÷øùúûüışÿ"]),
  (["iso8859_10", "csisolatin6", "iso_8859_10", "iso_8859_10_1992", "iso_ir_157", "l6", "latin6"],
    controls ++ String.join [
      "\u00a0ĄĒĢĪĨĶ§ĻĐŠŦŽ\u00adŪŊ",
      "°ąēģīĩķ·ļđšŧž―ūŋ",
      "ĀÁÂÃÄÅÆĮČÉĘËĖÍÎÏ",
      "ÐŅŌÓÔÕÖŨØŲÚÛÜÝÞß",
      "āáâãäåæįčéęëėíîï",
      "ðņōóôõöũøųúûüýþĸ"]),
  (["iso8859_11", "iso_8859_11", "iso_8859_11_2001", "thai"],
    controls ++ String.join [
      "\u00a0กขฃคฅฆงจฉชซฌญฎฏ",
      "ฐฑฒณดตถทธนบปผฝพฟ",
      "ภมยรฤลฦวศษสหฬอฮฯ",
      "ะ\u0e31าำ\u0e34\u0e35\u0e36\u0e37\u0e38\u0e39\u0e3a\ufffd\ufffd\ufffd\ufffd฿",
      "เแโใไๅ\u0e46\u0e47\u0e48\u0e49\u0e4a\u0e4b\u0e4c\u0e4d\u0e4e๏",
      "\u0e50\u0e51\u0e52\u0e53\u0e54\u0e55\u0e56\u0e57\u0e58\u0e59๚๛\ufffd\ufffd\ufffd\ufffd"]),
  (["iso8859_13", "iso_8859_13", "l7", "latin7"],
    controls ++ String.join [
      "\u00a0”¢£¤„¦§Ø©Ŗ«¬\u00ad®Æ",
      "°±\u00b2\u00b3“µ¶·ø\u00b9ŗ»\u00bc\u00bd\u00beæ",
      "ĄĮĀĆÄÅĘĒČÉŹĖĢĶĪĻ",
      "ŠŃŅÓŌÕÖ×ŲŁŚŪÜŻŽß",
      "ąįāćäåęēčéźėģķīļ",
      "šńņóōõö÷ųłśūüżž’"]),
  (["iso8859_14", "iso_8859_14", "iso_8859_14_1998", "iso_celtic", "iso_ir_199", "l8", "latin8"],
    controls ++ String.join [
      "\u00a0Ḃḃ£ĊċḊ§Ẁ©ẂḋỲ\u00ad®Ÿ",
      "ḞḟĠġṀṁ¶ṖẁṗẃṠỳẄẅṡ",
      "ÀÁÂÃÄÅÆÇÈÉÊËÌÍÎÏ",
      "ŴÑÒÓÔÕÖṪØÙÚÛÜÝŶß",
      "àáâãäåæçèéêëìíîï",
      "ŵñòóôõöṫøùúûüýŷÿ"]),
  (["iso8859_15", "iso_8859_15", "l9", "latin9"],
    controls ++ String.join [
      "\u00a0¡¢£€¥Š§š©ª«¬\u00ad®¯",
      "°±\u00b2\u00b3Žµ¶·ž\u00b9º»ŒœŸ¿",
      "ÀÁÂÃÄÅÆÇÈÉÊËÌÍÎÏ",
      "ÐÑÒÓÔÕÖ×ØÙÚÛÜÝÞß",
      "àáâãäåæçèéêëìíîï",
      "ðñòóôõö÷øùúûüýþÿ"]),
  (["iso8859_16", "iso_8859_16", "iso_8859_16_2001", "iso_ir_226", "l10", "latin10"],
    controls ++ String.join [
      "\u00a0ĄąŁ€„Š§š©Ș«Ź\u00adźŻ",
      "°±ČłŽ”¶·žčș»ŒœŸż",
      "ÀÁÂĂÄĆÆÇÈÉÊËÌÍÎÏ",
      "ĐŃÒÓÔŐÖŚŰÙÚÛÜĘȚß",
      "àáâăäćæçèéêëìíîï",
      "đńòóôőöśűùúûüęțÿ"]),
  (["cp1250", "1250", "windows_1250"],
    String.join [
      "€\ufffd‚\ufffd„…†‡\ufffd‰Š‹ŚŤŽŹ",
      "\ufffd‘’“”•–—\ufffd™š›śťžź",
      "\u00a0\u02c7˘Ł¤Ą¦§¨©Ş«¬\u00ad®Ż",
      "°±˛ł´µ¶·¸ąş»Ľ˝ľż",
      "ŔÁÂĂÄĹĆÇČÉĘËĚÍÎĎ",
      "ĐŃŇÓÔŐÖ×ŘŮÚŰÜÝŢß",
      "ŕáâăäĺćçčéęëěíîď",
      "đńňóôőö÷řůúűüýţ˙"]),
  (["cp1251", "1251", "windows_1251"],
    String.join [
      "ЂЃ‚ѓ„…†‡€‰Љ‹ЊЌЋЏ",
      "ђ‘’“”•–—\ufffd™љ›њќћџ",
      "\u00a0ЎўЈ¤Ґ¦§Ё©Є«¬\u00ad®Ї",
      "°±Ііґµ¶·ё№є»јЅѕї",
      "АБВГДЕЖЗИЙКЛМНОП",
      "РСТУФХЦЧШЩЪЫЬЭЮЯ",
      "абвгдежзийклмноп",
      "рстуфхцчшщъыьэюя"]),
  (["cp1252", "1252", "windows_1252"],
    String.join [
      "€\ufffd‚ƒ„…†‡\u02c6‰Š‹Œ\ufffdŽ\ufffd",
      "\ufffd‘’“”•–—˜™š›œ\ufffdžŸ",
      "\u00a0¡¢£¤¥¦§¨©ª«¬\u00ad®¯",
      "°±\u00b2\u00b3´µ¶·¸\u00b9º»\u00bc\u00bd\u00be¿",
      "ÀÁÂÃÄÅÆÇÈÉÊËÌÍÎÏ",
      "ÐÑÒÓÔÕÖ×ØÙÚÛÜÝÞß",
      "àáâãäåæçèéêëìíîï",
      "ðñòóôõö÷øùúûüýþÿ"]),
  (["cp1253", "1253", "windows_1253"],
    String.join [
      "€\ufffd‚ƒ„…†‡\ufffd‰\ufffd‹\ufffd\ufffd\ufffd\ufffd",
      "\ufffd‘’“”•–—\ufffd™\ufffd›\ufffd\ufffd\ufffd\ufffd",
      "\u00a0΅Ά£¤¥¦§¨©\ufffd«¬\u00ad®―",
      "°±\u00b2\u00b3΄µ¶·ΈΉΊ»Ό\u00bdΎΏ",
      "ΐΑΒΓΔΕΖΗΘΙΚΛΜΝΞΟ",
      "ΠΡ\ufffdΣΤΥΦΧΨΩΪΫάέήί",
      "ΰαβγδεζηθικλμνξο",
      "πρςστυφχψωϊϋόύώ\ufffd"]),
  (["cp1254", "1254", "windows_1254"],
    String.join [
      "€\ufffd‚ƒ„…†‡\u02c6‰Š‹Œ\ufffd\ufffd\ufffd",
      "\ufffd‘’“”•–—˜™š›œ\ufffd\ufffdŸ",
      "\u00a0¡¢£¤¥¦§¨©ª«¬\u00ad®¯",
      "°±\u00b2\u00b3´µ¶·¸\u00b9º»\u00bc\u00bd\u00be¿",
      "ÀÁÂÃÄÅÆÇÈÉÊËÌÍÎÏ",
      "ĞÑÒÓÔÕÖ×ØÙÚÛÜİŞß",
      "àáâãäåæçèéêëìíîï",
      "ğñòóôõö÷øùúûüışÿ"]),
  (["cp1255", "1255", "windows_1255"],
    String.join [
      "€\ufffd‚ƒ„…†‡\u02c6‰\ufffd‹\ufffd\ufffd\ufffd\ufffd",
      "\ufffd‘’“”•–—˜™\ufffd›\ufffd\ufffd\ufffd\ufffd",
      "\u00a0¡¢£₪¥¦§¨©×«¬\u00ad®¯",
      "°±\u00b2\u00b3´µ¶·¸\u00b9÷»\u00bc\u00bd\u00be¿",
      "\u05b0\u05b1\u05b2\u05b3\u05b4\u05b5\u05b6\u05b7\u05b8\u05b9\ufffd\u05bb\u05bc\u05bd\u05be\u05bf",
      "\u05c0\u05c1\u05c2\u05c3\u05f0\u05f1\u05f2\u05f3\u05f4\ufffd\ufffd\ufffd\ufffd\ufffd\ufffd\ufffd",
      "\u05d0\u05d1\u05d2\u05d3\u05d4\u05d5\u05d6\u05d7\u05d8\u05d9\u05da\u05db\u05dc\u05dd\u05de\u05df",
      "\u05e0\u05e1\u05e2\u05e3\u05e4\u05e5\u05e6\u05e7\u05e8\u05e9\u05ea\ufffd\ufffd\u200e\u200f\ufffd"]),
  (["cp1256", "1256", "windows_1256"],
    String.join [
      "€\u067e‚ƒ„…†‡\u02c6‰\u0679‹Œ\u0686\u0698\u0688",
      "\u06af‘’“”•–—\u06a9™\u0691›œ\u200c\u200d\u06ba",
      "\u00a0،¢£¤¥¦§¨©\u06be«¬\u00ad®¯",
      "°±\u00b2\u00b3´µ¶·¸\u00b9\u061b»\u00bc\u00bd\u00be\u061f",
      "\u06c1\u0621\u0622\u0623\u0624\u0625\u0626\u0627\u0628\u0629\u062a\u062b\u062c\u062d\u062e\u062f",
      "\u0630\u0631\u0632\u0633\u0634\u0635\u0636×\u0637\u0638\u0639\u063a\u0640\u0641\u0642\u0643",
      "à\u0644â\u0645\u0646\u0647\u0648çèéêë\u0649\u064aîï",
      "\u064b\u064c\u064d\u064eô\u064f\u0650÷\u0651ù\u0652ûü\u200e\u200f\u06d2"]),
  (["cp1257", "1257", "windows_1257"],
    String.join [
      "€\ufffd‚\ufffd„…†‡\ufffd‰\ufffd‹\ufffd¨\u02c7¸",
      "\ufffd‘’“”•–—\ufffd™\ufffd›\ufffd¯˛\ufffd",
      "\u00a0\ufffd¢£¤\ufffd¦§Ø©Ŗ«¬\u00ad®Æ",
      "°±\u00b2\u00b3´µ¶·ø\u00b9ŗ»\u00bc\u00bd\u00beæ",
      "ĄĮĀĆÄÅĘĒČÉŹĖĢĶĪĻ",
      "ŠŃŅÓŌÕÖ×ŲŁŚŪÜŻŽß",
      "ąįāćäåęēčéźėģķīļ",
      "šńņóōõö÷ųłśūüżž˙"]),
  (["cp1258", "1258", "windows_1258"],
    String.join [
      "€\ufffd‚ƒ„…†‡\u02c6‰\ufffd‹Œ\ufffd\ufffd\ufffd",
      "\ufffd‘’“”•–—˜™\ufffd›œ\ufffd\ufffdŸ",
      "\u00a0¡¢£¤¥¦§¨©ª«¬\u00ad®¯",
      "°±\u00b2\u00b3´µ¶·¸\u00b9º»\u00bc\u00bd\u00be¿",
      "ÀÁÂĂÄÅÆÇÈÉÊË\u0300ÍÎÏ",
      "ĐÑ\u0309ÓÔƠÖ×ØÙÚÛÜƯ\u0303ß",
      "àáâăäåæçèéêë\u0301íîï",
      "đñ\u0323óôơö÷øùúûüư₫ÿ"]),
  (["koi8_r", "cskoi8r"],
    String.join [
      "─│┌┐└┘├┤┬┴┼▀▄█▌▐",
      "░▒▓⌠■∙√≈≤≥\u00a0⌡°\u00b2·÷",
      "═║╒ё╓╔╕╖╗╘╙╚╛╜╝╞",
      "╟╠╡Ё╢╣╤╥╦╧╨╩╪╫╬©",
      "юабцдефгхийклмно",
      "пярстужвьызшэщчъ",
      "ЮАБЦДЕФГХИЙКЛМНО",
      "ПЯРСТУЖВЬЫЗШЭЩЧЪ"]),
  (["koi8_u"],
    String.join [
      "─│┌┐└┘├┤┬┴┼▀▄█▌▐",
      "░▒▓⌠■∙√≈≤≥\u00a0⌡°\u00b2·÷",
      "═║╒ёє╔ії╗╘╙╚╛ґ╝╞",
      "╟╠╡ЁЄ╣ІЇ╦╧╨╩╪Ґ╬©",
      "юабцдефгхийклмно",
      "пярстужвьызшэщчъ",
      "ЮАБЦДЕФГХИЙКЛМНО",
      "ПЯРСТУЖВЬЫЗШЭЩЧЪ"]),
  (["cp437", "437", "cspc8codepage437", "ibm437"],
    String.join [
      "ÇüéâäàåçêëèïîìÄÅ",
      "ÉæÆôöòûùÿÖÜ¢£¥₧ƒ",
      "áíóúñÑªº¿⌐¬\u00bd\u00bc¡«»",
      "░▒▓│┤╡╢╖╕╣║╗╝╜╛┐",
      "└┴┬├─┼╞╟╚╔╩╦╠═╬╧",
      "╨╤╥╙╘╒╓╫╪┘┌█▄▌▐▀",
      "αßΓπΣσµτΦΘΩδ∞φε∩",
      "≡±≥≤⌠⌡÷≈°∙·√\u207f\u00b2■\u00a0"]),
  (["cp850", "850", "cspc850multilingual", "ibm850"],
    String.join [
      "ÇüéâäàåçêëèïîìÄÅ",
      "ÉæÆôöòûùÿÖÜø£Ø×ƒ",
      "áíóúñÑªº¿®¬\u00bd\u00bc¡«»",
      "░▒▓│┤ÁÂÀ©╣║╗╝¢¥┐",
      "└┴┬├─┼ãÃ╚╔╩╦╠═╬¤",
      "ðÐÊËÈıÍÎÏ┘┌█▄¦Ì▀",
      "ÓßÔÒõÕµþÞÚÛÙýÝ¯´",
      "\u00ad±‗\u00be¶§÷¸°¨·\u00b9\u00b3\u00b2■\u00a0"]),
  (["cp852", "852", "cspcp852", "ibm852"],
    String.join [
      "ÇüéâäůćçłëŐőîŹÄĆ",
      "ÉĹĺôöĽľŚśÖÜŤťŁ×č",
      "áíóúĄąŽžĘę¬źČş«»",
      "░▒▓│┤ÁÂĚŞ╣║╗╝Żż┐",
      "└┴┬├─┼Ăă╚╔╩╦╠═╬¤",
      "đĐĎËďŇÍÎě┘┌█▄ŢŮ▀",
      "ÓßÔŃńňŠšŔÚŕŰýÝţ´",
      "\u00ad˝˛\u02c7˘§÷¸°¨˙űŘř■\u00a0"]),
  (["cp866", "866", "csibm866", "ibm866"],
    String.join [
      "АБВГДЕЖЗИЙКЛМНОП",
      "РСТУФХЦЧШЩЪЫЬЭЮЯ",
      "абвгдежзийклмноп",
      "░▒▓│┤╡╢╖╕╣║╗╝╜╛┐",
      "└┴┬├─┼╞╟╚╔╩╦╠═╬╧",
      "╨╤╥╙╘╒╓╫╪┘┌█▄▌▐▀",
      "рстуфхцчшщъыьэюя",
      "ЁёЄєЇїЎў°∙·√№¤■\u00a0"]),
  (["cp874"],
    String.join [
      "€\ufffd\ufffd\ufffd\ufffd…\ufffd\ufffd\ufffd\ufffd\ufffd\ufffd\ufffd\ufffd\ufffd\ufffd",
      "\ufffd‘’“”•–—\ufffd\ufffd\ufffd\ufffd\ufffd\ufffd\ufffd\ufffd",
      "\u00a0กขฃคฅฆงจฉชซฌญฎฏ",
      "ฐฑฒณดตถทธนบปผฝพฟ",
      "ภมยรฤลฦวศษสหฬอฮฯ",
      "ะ\u0e31าำ\u0e34\u0e35\u0e36\u0e37\u0e38\u0e39\u0e3a\ufffd\ufffd\ufffd\ufffd฿",
      "เแโใไๅ\u0e46\u0e47\u0e48\u0e49\u0e4a\u0e4b\u0e4c\u0e4d\u0e4e๏",
      "\u0e50\u0e51\u0e52\u0e53\u0e54\u0e55\u0e56\u0e57\u0e58\u0e59๚๛\ufffd\ufffd\ufffd\ufffd"]),
  (["mac_roman", "macintosh", "macroman"],
    String.join [
      "ÄÅÇÉÑÖÜáàâäãåçéè",
      "êëíìîïñóòôöõúùûü",
      "†°¢£§•¶ß®©™´¨≠ÆØ",
      "∞±≤≥¥µ∂∑∏π∫ªºΩæø",
      "¿¡¬√ƒ≈∆«»…\u00a0ÀÃÕŒœ",
      "–—“”‘’÷◊ÿŸ⁄€‹›\ufb01\ufb02",
      "‡·‚„‰ÂÊÁËÈÍÎÏÌÓÔ",
      "\uf8ffÒÚÛÙı\u02c6˜¯˘˙˚¸˝˛\u02c7"]),
  (["mac_cyrillic", "maccyrillic"],
    String.join [
      "АБВГДЕЖЗИЙКЛМНОП",
      "РСТУФХЦЧШЩЪЫЬЭЮЯ",
      "†°Ґ£§•¶І®©™Ђђ≠Ѓѓ",
      "∞±≤≥іµґЈЄєЇїЉљЊњ",
      "јЅ¬√ƒ≈∆«»…\u00a0ЋћЌќѕ",
      "–—“”‘’÷„ЎўЏџ№Ёёя",
      "абвгдежзийклмноп",
      "рстуфхцчшщъыьэю€"]),
  (["tis_620", "iso_ir_166", "tis620", "tis_620_0", "tis_620_2529_0", "tis_620_2529_1"],
    controls ++ String.join [
      "\ufffdกขฃคฅฆงจฉชซฌญฎฏ",
      "ฐฑฒณดตถทธนบปผฝพฟ",
      "ภมยรฤลฦวศษสหฬอฮฯ",
      "ะ\u0e31าำ\u0e34\u0e35\u0e36\u0e37\u0e38\u0e39\u0e3a\ufffd\ufffd\ufffd\ufffd฿",
      "เแโใไๅ\u0e46\u0e47\u0e48\u0e49\u0e4a\u0e4b\u0e4c\u0e4d\u0e4e๏",
      "\u0e50\u0e51\u0e52\u0e53\u0e54\u0e55\u0e56\u0e57\u0e58\u0e59๚๛\ufffd\ufffd\ufffd\ufffd"])]

end ChatClient.Text.Charset
