import PxdGen.Text.Blank
/-! # Tables of encodings

Encodings by their names, which are written here in small letters with single underscores between
their parts. An encoding has a name of its own and other names; in the other names the document may
write a point for an underscore.
-/

namespace PxdGen.Xml.Charset

structure Name where
  own : String
  others : List String

/-- Reads the names of an encoding, its own first. -/
def Name.ofText (s : String) : Name := ⟨(Text.words s).headD "", (Text.words s).tail⟩

/-- Encodings of which only the ASCII characters can be read here. -/
def asciiNames : List Name := [
  "ascii ansi_x3.4_1968 ansi_x3.4_1986 ansi_x3_4_1968 cp367 csascii ibm367 iso646_us
    iso_646.irv_1991 iso_ir_6 us us_ascii",
  "iso2022_jp csiso2022jp iso2022jp iso_2022_jp",
  "iso2022_jp_1 iso2022jp_1 iso_2022_jp_1",
  "iso2022_jp_2 iso2022jp_2 iso_2022_jp_2",
  "iso2022_jp_2004 iso2022jp_2004 iso_2022_jp_2004",
  "iso2022_jp_3 iso2022jp_3 iso_2022_jp_3",
  "iso2022_jp_ext iso2022jp_ext iso_2022_jp_ext",
  "utf_8 cp65001 u8 utf utf8 utf8_ucs2 utf8_ucs4",
  "utf_8_sig"].map .ofText

/-- Encodings whose bytes are the numbers of their characters. -/
def latinNames : List Name := [
  "charmap",
  "latin_1 cp819 csisolatin1 ibm819 iso8859 iso8859_1 iso_8859_1 iso_8859_1_1987 iso_ir_100 l1
    latin latin1",
  "raw_unicode_escape",
  "unicode_escape"].map .ofText

/-- Encodings whose characters can take several bytes. -/
def wideNames : List Name := [
  "big5 big5_tw csbig5 x_mac_trad_chinese",
  "big5hkscs big5_hkscs hkscs",
  "cp932 ms932 ms_kanji mskanji",
  "cp949 ms949 uhc",
  "cp950 ms950",
  "euc_jis_2004 euc_jis2004 eucjis2004 jisx0213",
  "euc_jisx0213 eucjisx0213",
  "euc_jp eucjp u_jis ujis",
  "euc_kr euckr korean ks_c_5601 ks_c_5601_1987 ks_x_1001 ksc5601 ksx1001 x_mac_korean",
  "gb18030 gb18030_2000",
  "gb2312 chinese csiso58gb231280 euc_cn euccn eucgb2312_cn gb2312_1980 gb2312_80 iso_ir_58
    x_mac_simp_chinese",
  "gbk cp936 ms936",
  "iso2022_kr csiso2022kr iso2022kr iso_2022_kr",
  "johab cp1361 ms1361",
  "shift_jis csshiftjis s_jis shiftjis sjis x_mac_japanese",
  "shift_jis_2004 s_jis_2004 shiftjis2004 sjis_2004",
  "shift_jisx0213 s_jisx0213 shiftjisx0213 sjisx0213",
  "utf_16 u16 utf16",
  "utf_16_be unicodebigunmarked utf_16be",
  "utf_16_le unicodelittleunmarked utf_16le",
  "utf_32 u32 utf32",
  "utf_32_be utf_32be",
  "utf_32_le utf_32le",
  "utf_7 u7 unicode_1_1_utf_7 utf7"].map .ofText

/-- Encodings in which markup itself is written in other bytes. -/
def alienNames : List Name := [
  "cp037 csibm037 ebcdic_cp_ca ebcdic_cp_nl ebcdic_cp_us ebcdic_cp_wt ibm037 ibm039",
  "cp1026 csibm1026 ibm1026",
  "cp1140 ibm1140",
  "cp273 csibm273 ibm273",
  "cp424 csibm424 ebcdic_cp_he ibm424",
  "cp500 csibm500 ebcdic_cp_be ebcdic_cp_ch ibm500",
  "cp864 csibm864 ibm864",
  "cp875",
  "mac_arabic",
  "mac_farsi"].map .ofText

/-- Encodings that read ASCII characters, but no tilde. -/
def tildeNames : List Name := [
  "hz hz_gb hz_gb_2312 hzgb"].map .ofText

/-- The letters of a text in which `⋯` stands for all those between two. -/
def spread (s : String) : String := String.ofList (go s.toList)
where
  go : List Char → List Char
    | a :: '⋯' :: z :: rest => (List.range' a.toNat (z.toNat + 1 - a.toNat)).map Char.ofNat ++
    go rest
    | c :: rest => c :: go rest
    | [] => []

/-- Other letters in the place of those from some positions on. -/
def changed (letters : String) (changes : List (Nat × String)) : String :=
  changes.foldl (fun t c =>
    let new := (spread c.2).toList
    String.ofList (t.toList.take c.1 ++ new ++ t.toList.drop (c.1 + new.length))) letters

def latinLetters : String := String.ofList ((List.range' 160 96).map Char.ofNat)

/-! ### Letters that several encodings share -/

def iso8859_6 : String :=
  changed latinLetters [
    (1, "���¤�������،\u00AD�������������؛���؟�ء⋯غ�����ـ⋯ي"),
    (75, "\u064B⋯\u0652�������������")]

def iso8859_11 : String :=
  changed iso8859_6 [
    (1, "ก⋯\u0E37"),
    (56, "\u0E38\u0E39\u0E3A"),
    (63, "฿⋯๛")]

def iso8859_15 : String :=
  changed latinLetters [(4, "€¥Š§š"), (20, "Žµ¶·ž¹º»ŒœŸ")]

def iso8859_9 : String :=
  changed latinLetters [(48, "Ğ"), (61, "İŞ"), (80, "ğ"), (93, "ış")]

def iso8859_10 : String :=
  changed iso8859_15 [(1, "ĄĒĢĪĨĶ§ĻĐŠŦŽ\u00ADŪŊ°ąēģīĩķ·ļđšŧž―ūŋĀ"), (39, "ĮČÉĘËĖÍÎÏÐŅŌÓÔÕÖŨØŲ"),
    (64, "ā"), (71, "įčéęëėíîïðņōóôõöũøų"), (95, "ĸ")]

def iso8859_8 : String :=
  changed latinLetters [(1, "�"), (10, "×"),
    (26, "÷»¼½¾��������������������������������‗א⋯ת��\u200E\u200F�")]

def cp437 : String :=
  "ÇüéâäàåçêëèïîìÄÅÉæÆôöòûùÿÖÜ¢£¥₧ƒáíóúñÑªº¿⌐¬½¼¡«»" ++
  "░▒▓│┤╡╢╖╕╣║╗╝╜╛┐└┴┬├─┼╞╟╚╔╩╦╠═╬╧╨╤╥╙╘╒╓╫╪┘┌█▄▌▐▀" ++
  "αßΓπΣσµτΦΘΩδ∞φε∩≡±≥≤⌠⌡÷≈°∙·√ⁿ²■\u00A0"

def cp865 : String :=
  changed cp437 [(27, "ø£Ø"), (47, "¤")]

def cp862 : String :=
  changed cp437 [(0, "א⋯ת")]

def cp866 : String :=
  changed cp437 [(0, "А⋯п"),
    (96, "р⋯яЁёЄєЇїЎў"), (124, "№¤")]

def cp850 : String :=
  changed cp437 [(27, "ø£Ø×"), (41, "®"), (53, "ÁÂÀ©"), (61, "¢¥"), (70, "ãÃ"), (79, "¤ðÐÊËÈıÍÎÏ"),
    (93, "¦Ì▀ÓßÔÒõÕµþÞÚÛÙýÝ¯´\u00AD±‗¾¶§÷¸°¨·¹³")]

def cp1125 : String :=
  changed cp866 [(114, "ҐґЄєІіЇї")]

def cp874 : String :=
  changed cp1125 [
    (0, "€����…�����������‘’“”•–—��������\u00A0ก⋯ฮ"),
    (79, "ฯ⋯\u0E3A����฿⋯\u0E49"),
    (106, "\u0E4A⋯๛����")]

def cp1255 : String :=
  changed cp874 [(2, "‚ƒ„…†‡ˆ‰�‹"), (24, "˜™�›"),
    (33, "¡¢£₪¥⋯©×«⋯¹÷»⋯¿\u05B0⋯\u05B7"),
    (72, "\u05B8\u05B9�\u05BB⋯׃װ⋯״��"),
    (95, "�א⋯ת��\u200E\u200F")]

def cp1258 : String :=
  changed cp1255 [(12, "Œ"), (28, "œ��Ÿ"), (36, "¤"), (42, "ª"), (58, "º"),
    (64, "ÀÁÂĂÄ⋯Ë\u0300ÍÎÏĐÑ\u0309ÓÔƠÖ⋯ÜƯ\u0303ßàáâăä⋯ë\u0301íîïđñ\u0323óôơö⋯ú"),
    (123, "ûüư₫ÿ")]

def cp1254 : String :=
  changed cp1258 [(10, "Š"), (26, "š"), (67, "Ã"), (76, "ÌÍÎÏĞÑ⋯Õ"), (93, "İŞß⋯ã"),
    (108, "ìíîïğñ⋯õ"), (125, "ış")]

def cp1252 : String :=
  changed cp1254 [(14, "Ž"), (30, "ž"), (80, "Ð"), (93, "ÝÞ"), (112, "ð"), (125, "ýþ")]

def cp1253 : String :=
  changed cp1255 [(8, "�"), (24, "�"), (33, "΅Ά£¤"), (42, "�"),
    (47, "―°±²³΄µ¶·ΈΉΊ»Ό½Ύ⋯Ρ�Σ⋯ώ")]

def koi8_t : String :=
  changed cp1253 [(0, "қғ‚Ғ"), (10, "ҳ‹ҲҷҶ�Қ"), (32, "�ӯӮё¤ӣ¦§��"),
    (47, "�°±²Ё�Ӣ¶·�№�»���©юабцдефгхи⋯пярстужвьызшэщчъЮАБЦДЕФГХИ⋯ПЯРСТУЖВЬЫЗШЭЩЧЪ")]

def koi8_r : String :=
  changed koi8_t [(0, "─│┌┐└┘├┤┬┴┼▀▄█▌▐⋯▓⌠■∙√≈≤≥\u00A0⌡°²·÷═║╒ё╓⋯╡Ё╢⋯╬")]

def cp1257 : String :=
  changed cp1253 [(3, "�"), (13, "¨ˇ¸"), (29, "¯˛"), (33, "�¢£¤�¦§Ø©Ŗ"),
    (47, "Æ°⋯·ø¹ŗ»¼½¾æĄĮĀĆÄÅĘĒČÉŹĖĢĶĪĻŠŃŅÓŌÕÖ×ŲŁŚŪÜŻŽßąįāćäåęēčéźėģķīļšńņóōõö÷ųłśūüżž˙")]

def cp861 : String :=
  changed cp865 [(11, "ÐðÞ"), (21, "þûÝý"), (36, "ÁÍÓÚ"), (47, "»")]

def mac_cyrillic : String :=
  changed cp1125 [
    (32, "†°Ґ£§•¶І®©™Ђђ≠Ѓѓ∞±≤≥іµґЈЄєЇїЉљЊњјЅ¬√ƒ≈∆«»…\u00A0ЋћЌќѕ–—“”‘’÷„ЎўЏџ№Ёёяа⋯о"),
    (111, "п⋯ю€")]

def cp1251 : String :=
  changed mac_cyrillic [
    (0, "ЂЃ‚ѓ„…†‡€‰Љ‹ЊЌЋЏђ‘’“”•–—�™љ›њќћџ\u00A0ЎўЈ¤Ґ¦§Ё©Є«⋯®Ї°±Ііґµ¶·ё№є»јЅѕїА⋯Й"),
    (74, "К⋯Я"), (127, "я")]

def mac_iceland : String :=
  changed mac_cyrillic [(0, "ÄÅÇÉÑÖÜáàâäãåçéèêëíìîïñóòôöõúùûüÝ°¢"), (39, "ß®©™´¨≠ÆØ"),
    (52, "¥µ∂∑∏π∫ªºΩæø¿¡"), (75, "ÀÃÕŒœ"), (87, "◊ÿŸ⁄€ÐðÞþý·‚„‰ÂÊÁËÈÍÎÏÌÓÔÒÚÛÙıˆ˜¯˘˙˚¸˝˛ˇ")]

def mac_roman : String :=
  changed mac_iceland [(32, "†"), (92, "‹›ﬁﬂ‡")]

/-- Encodings of single bytes, and the characters of the bytes from 0x80 on, or from 0xA0 on where
those below are controls with the same numbers. The replacement character stands for none. -/
def byteTables : List (Name × String) := List.map (fun t => (.ofText t.1, spread t.2)) [
  ("cp1006",
    "\u00A0۰⋯۹،؛\u00AD؟ﺁﺍﺎﺎﺏﺑﭖﭘﺓﺕﺗﭦﭨﺙﺛﺝﺟﭺﭼﺡﺣﺥﺧﺩﮄﺫﺭﮌﺯﮊﺱﺳﺵﺷﺹﺻﺽﺿﻁﻅﻉ⋯ﻑﻓﻕﻗﻙﻛﮒﮔﻝﻟﻠﻡﻣﮞﻥﻧﺅﻭﮦﮨﮩﮪﺀ" ++
    "ﺉﺊﺋﻱﻲﻳﮰﮮﹼﹽ"),
  ("cp1125 cp866u ibm1125 ruscii", cp1125),
  ("cp1250 windows_1250",
    changed cp1257 [(10, "Š‹ŚŤŽŹ"), (26, "š›śťžź\u00A0ˇ˘Ł¤Ą¦§¨©Ş"),
      (47, "Ż°±˛ł´⋯¸ąş»Ľ˝ľżŔÁÂĂÄĹĆÇČÉĘËĚÍÎĎĐŃŇÓÔŐÖ×ŘŮÚŰÜÝŢßŕáâăäĺćçčéęëěíîďđńňóôőö÷řůúűüýţ")]),
  ("cp1251 windows_1251", cp1251),
  ("cp1252 windows_1252", cp1252),
  ("cp1253 windows_1253", cp1253),
  ("cp1254 windows_1254", cp1254),
  ("cp1255 windows_1255", cp1255),
  ("cp1256 windows_1256",
    changed cp1252 [(1, "پ"), (10, "ٹ‹Œچژڈگ"), (24, "ک™ڑ›œ\u200C\u200Dں\u00A0،"), (42, "ھ"),
      (58, "؛»¼½¾؟ہء⋯ض×طظعغـفقكàلâمنهو"),
      (108, "ىيîï\u064B⋯\u064Eô\u064F\u0650÷\u0651ù\u0652ûü\u200E\u200Fے")]),
  ("cp1257 windows_1257", cp1257),
  ("cp1258 windows_1258", cp1258),
  ("cp437 cspc8codepage437 ibm437", cp437),
  ("cp720",
    changed cp437 [(0, "\u0080\u0081éâ\u0084à\u0086"),
      (13, "\u008D⋯\u0090\u0651\u0652ô¤ـûùءآأؤ£إ⋯ص"),
      (96, "ض⋯غفµق⋯ي≡\u064B⋯\u0650")]),
  ("cp737",
    changed cp437 [(0, "Α⋯ΡΣ⋯Ωα⋯ρσςτ⋯ψ"),
      (96, "ωάέήϊίόύϋώΆΈΉΊΌΎΏ±≥≤ΪΫ")]),
  ("cp775 cspc775baltic ibm775",
    changed cp861 [(0, "ĆüéāäģåćłēŖŗīŹ"), (19, "ōöĢ¢Śś"), (30, "×¤ĀĪóŻżź”¦©®¬½¼Ł"), (53, "ĄČĘĖ"),
      (61, "ĮŠ"), (70, "ŲŪ"), (79, "Žąčęėįšųūž"), (96, "ÓßŌŃõÕµńĶķĻļņĒŅ’\u00AD±“¾¶§÷„°∙·¹³")]),
  ("cp850 cspc850multilingual ibm850", cp850),
  ("cp852 cspcp852 ibm852",
    changed cp850 [(5, "ůćçłëŐőîŹÄĆÉĹĺôöĽľŚśÖÜŤťŁ×čáíóúĄąŽžĘę¬źČş"), (55, "ĚŞ"), (61, "Żż"),
      (70, "Ăă"), (80, "đĐĎËďŇÍÎě"), (93, "ŢŮ"), (99, "ŃńňŠšŔÚŕŰýÝţ´\u00AD˝˛ˇ˘"), (122, "˙űŘř")]),
  ("cp855 csibm855 ibm855",
    changed cp850 [(0, "ђЂѓЃёЁєЄѕЅіІїЇјЈљЉњЊћЋќЌўЎџЏюЮъЪаАбБцЦдДеЕфФгГ"), (53, "хХиИ"), (61, "йЙ"),
      (70, "кК"), (80, "лЛмМнНоОп"), (93, "Пя▀ЯрРсСтТуУжЖвВьЬ№\u00ADыЫзЗшШэЭщЩчЧ§")]),
  ("cp856",
    changed cp862 [(27, "�£�×����������®¬½¼�"), (53, "���©"), (61, "¢¥"), (70, "��"),
      (79, "¤���������"), (93, "¦�▀������µ�������¯´\u00AD±‗¾¶§÷¸°¨·¹³")]),
  ("cp857 csibm857 ibm857",
    changed cp850 [(13, "ı"), (24, "İ"), (30, "Şş"), (38, "Ğğ"), (80, "ºªÊËÈ�"), (103, "�×ÚÛÙìÿ"),
      (114, "�")]),
  ("cp858 csibm858 ibm858", changed cp850 [(85, "€")]),
  ("cp860 csibm860 ibm860", changed cp437 [(4, "ãàÁçêÊèÍÔìÃÂÉÀÈôõòÚùÌÕÜ¢£Ù₧Ó"), (41, "Ò")]),
  ("cp861 cp_is csibm861 ibm861", cp861),
  ("cp862 cspc862latinhebrew ibm862", cp862),
  ("cp863 csibm863 ibm863",
    changed cp437 [(4, "Âà¶"), (13, "‗À§ÉÈÊôËÏûù¤ÔÜ¢£ÙÛƒ¦´óú¨¸³¯Î"), (45, "¾")]),
  ("cp865 csibm865 ibm865", cp865),
  ("cp866 csibm866 ibm866", cp866),
  ("cp869 cp_gr csibm869 ibm869",
    changed cp437 [(0, "������Ά�·¬¦‘’Έ―ΉΊΪΌ��ΎΫ©Ώ²³ά£έήίϊΐόύΑ⋯Η½ΘΙ"), (53, "ΚΛΜΝ"), (61, "ΞΟ"),
      (70, "ΠΡ"), (79, "Σ⋯Ωαβγ"), (93, "δε▀ζ⋯ρσςτ΄\u00AD±υφχ§ψ΅°¨ωϋΰώ")]),
  ("cp874", cp874),
  ("hp_roman8 cp1051 csHPRoman8 ibm1051 r8 roman8",
    changed iso8859_6 [
      (1, "ÀÂÈÊËÎÏ´ˋˆ¨˜ÙÛ₤¯Ýý°ÇçÑñ¡¿¤£¥§ƒ¢âêôûáéóúàèòùäëöüÅîØÆåíøæÄìÖÜÉïßÔÁÃãÐðÍÌÓÒÕõŠšÚŸÿÞþ·µ¶"),
      (85, "¾—¼½ªº«■»±")]),
  ("iso8859_10 csisolatin6 iso_8859_10 iso_8859_10_1992 iso_ir_157 l6 latin6", iso8859_10),
  ("iso8859_11 iso_8859_11 iso_8859_11_2001 thai", iso8859_11),
  ("iso8859_13 iso_8859_13 l7 latin7",
    "\u00A0”¢£¤„¦§Ø©Ŗ«⋯®Æ°±²³“µ¶·ø¹ŗ»¼½¾æĄĮĀĆÄÅĘĒČÉŹĖĢĶĪĻŠŃŅÓŌÕÖ×ŲŁŚŪÜŻŽßąįāćäåęēčéźėģķīļšńņóōõ" ++
    "ö÷ųłśūüżž’"),
  ("iso8859_14 iso_8859_14 iso_8859_14_1998 iso_celtic iso_ir_199 l8 latin8",
    changed iso8859_15 [(1, "Ḃḃ£ĊċḊ§Ẁ©ẂḋỲ\u00AD®ŸḞḟĠġṀṁ¶ṖẁṗẃṠỳẄẅṡ"), (48, "Ŵ"), (55, "Ṫ"),
      (62, "Ŷ"), (80, "ŵ"), (87, "ṫ"), (94, "ŷ")]),
  ("iso8859_15 iso_8859_15 l9 latin9", iso8859_15),
  ("iso8859_16 iso_8859_16 iso_8859_16_2001 iso_ir_226 l10 latin10",
    changed iso8859_9 [(1, "ĄąŁ€„Š§š©Ș«Ź\u00ADźŻ°±ČłŽ”¶·žčș»ŒœŸżÀÁÂĂÄĆ"),
      (48, "ĐŃÒÓÔŐÖŚŰÙÚÛÜĘȚßàáâăäć"), (80, "đńòóôőöśűùúûüęț")]),
  ("iso8859_2 csisolatin2 iso_8859_2 iso_8859_2_1987 iso_ir_101 l2 latin2",
    "\u00A0Ą˘Ł¤ĽŚ§¨ŠŞŤŹ\u00ADŽŻ°ą˛ł´ľśˇ¸šşťź˝žżŔÁÂĂÄĹĆÇČÉĘËĚÍÎĎĐŃ" ++
    "ŇÓÔŐÖ×ŘŮÚŰÜÝŢßŕáâăäĺćçčéęëěíîďđńňóôő" ++
    "ö÷řůúűüýţ˙"),
  ("iso8859_3 csisolatin3 iso_8859_3 iso_8859_3_1988 iso_ir_109 l3 latin3",
    changed iso8859_9 [(1, "Ħ˘£¤�Ĥ§¨İŞĞĴ\u00AD�Ż°ħ²³´µĥ·¸ışğĵ½�żÀÁÂ�ÄĊĈ"),
      (48, "�ÑÒÓÔĠÖ×ĜÙÚÛÜŬŜßàáâ�äċĉ"), (80, "�ñòóôġö÷ĝùúûüŭŝ˙")]),
  ("iso8859_4 csisolatin4 iso_8859_4 iso_8859_4_1988 iso_ir_110 l4 latin4",
    changed iso8859_10 [(2, "ĸŖ¤ĨĻ§¨ŠĒĢŦ\u00ADŽ¯°ą˛ŗ´ĩļˇ¸šēģŧŊž"), (47, "ĪĐŅŌĶÔÕÖ×"), (61, "ŨŪ"),
      (79, "īđņōķôõö÷"), (93, "ũū˙")]),
  ("iso8859_5 csisolatincyrillic cyrillic iso_8859_5 iso_8859_5_1988 iso_ir_144",
    "\u00A0Ё⋯Ќ\u00ADЎ⋯я№ё⋯ѕ" ++
    "і⋯ќ§ўџ"),
  ("iso8859_6 arabic asmo_708 csisolatinarabic ecma_114 iso_8859_6 iso_8859_6_1987 iso_ir_127",
    iso8859_6),
  ("iso8859_7 csisolatingreek ecma_118 elot_928 greek greek8 iso_8859_7 iso_8859_7_1987 iso_ir_126",
    changed iso8859_8 [(1, "‘’£€₯¦§¨©ͺ"),
      (14, "�―°±²³΄΅Ά·ΈΉΊ»Ό½Ύ⋯Ρ�Σ⋯ώ")]),
  ("iso8859_8 csisolatinhebrew hebrew iso_8859_8 iso_8859_8_1988 iso_ir_138", iso8859_8),
  ("iso8859_9 csisolatin5 iso_8859_9 iso_8859_9_1989 iso_ir_148 l5 latin5", iso8859_9),
  ("koi8_r cskoi8r", koi8_r),
  ("koi8_t", koi8_t),
  ("koi8_u", changed koi8_r [(36, "є╔ії"), (45, "ґ"), (52, "Є╣ІЇ"), (61, "Ґ")]),
  ("kz1048 kz_1048 rk1048 strk1048_2002",
    changed cp1251 [(13, "ҚҺ"), (29, "қһџ\u00A0ҰұӘ¤Ө¦§Ё©Ғ"), (47, "Ү°±Ііө"), (58, "ғ»әҢңү")]),
  ("mac_croatian",
    changed mac_roman [(41, "Š"), (46, "Ž"), (52, "∆"), (57, "š"), (62, "ž"), (70, "Ć«Č"),
      (80, "Đ"), (88, "©"), (94, "Æ»–"), (102, "ćÁč"), (112, "đ"), (121, "πË˚¸Êæ")]),
  ("mac_cyrillic maccyrillic", mac_cyrillic),
  ("mac_greek macgreek",
    changed mac_roman [(1, "¹²É³ÖÜ΅àâä΄¨"), (18, "£™îï•½‰ôö¦€"), (33, "ΓΔΘΛΞΠß®©ΣΪ§≠°·Α"),
      (53, "ΒΕΖΗΙΚΜΦΫΨΩάΝ¬ΟΡ≈Τ"), (75, "ΥΧΆΈœ–―"),
      (87, "ΉΊΌΎέήίόΏύαβψδεφγηιξκλμνοπώρστθωςχυζϊϋΐΰ\u00AD")]),
  ("mac_iceland maciceland", mac_iceland),
  ("mac_latin2 mac_centeuro maccentraleurope maclatin2",
    changed mac_iceland [(1, "ĀāÉĄÖÜáąČäčĆćéŹźĎíďĒēĖóėôöõúĚěü†°Ę"),
      (43, "ę¨≠ģĮįĪ≤≥īĶ∂∑łĻļĽľĹĺŅņŃ¬√ńŇ"), (75, "ňŐÕőŌ"),
      (88, "ōŔŕŘ‹›řŖŗŠ‚„šŚśÁŤťÍŽžŪÓÔūŮÚů⋯ųÝýķŻŁżĢ")]),
  ("mac_roman macintosh macroman", mac_roman),
  ("mac_romanian", changed mac_roman [(46, "ĂȘ"), (62, "ăș"), (94, "Țț")]),
  ("mac_turkish macturkish", changed mac_roman [(90, "ĞğİıŞş"), (117, "")]),
  ("palmos", changed cp1252 [(1, "\u0081"), (13, "♦♣♥♠"), (27, "\u009Bœ\u009D\u009E")]),
  ("ptcp154 cp154 csptcp154 cyrillic_asian pt154",
    changed cp1251 [(0, "ҖҒӮғ„…ҶҮҲүҠӢҢҚҺҸҗ"), (24, "ҳҷҡӣңқһҹ"), (36, "ӨҘҰ§Ё©Ә«¬ӯ®Ҝ°ұІіҙө"),
      (58, "ә»јҪҫҝ")]),
  ("tis_620 iso_ir_166 tis620 tis_620_0 tis_620_2529_0 tis_620_2529_1",
    changed iso8859_11 [(0, "�")])]

end PxdGen.Xml.Charset
